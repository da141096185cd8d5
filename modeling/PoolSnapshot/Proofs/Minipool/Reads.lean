import PoolSnapshot.Minipool.Details
import PoolSnapshot.Proofs.Survey.Sound

/-!
The reads that minipools and collections make. All of them are sound, each writes a field of its own, and none
changes the address or the version of its record.
-/
namespace PoolSnapshot

open Abi (Value Readable)

open Read (Apart apart_of settles_of shows_of_none shows_number shows_key)

/-- No answer changes what `part` is of the record. -/
def Read.Keeps (part : R → β) (ρ : Read R) : Prop :=
  ∀ g, Store.Changes ρ.store g → ∀ x, part (g x) = part x

theorem Read.keeps_of [Readable α] {args : List Value} {slot : Nat} {part : R → β} {set : R → α → R}
    (h : ∀ r a, part (set r a) = part r) : (Read.of slot κ m args set).Keeps part := by
  intro g c x
  obtain ⟨a, rfl⟩ := changes_of c
  exact h x a

namespace Minipool

variable (α : Addresses) (slot : Nat)

namespace Raw

variable (r : Raw)

/-- Values that have a meaning, all of them. -/
structure Proper : Prop where
  status : r.status.toNat < 5
  depositType : r.depositType.toNat < 5
  pubkey : r.pubkey = [] ∨ r.pubkey.length = 48
  statusBlock : r.statusBlock.toNat < 2 ^ 64
  statusTime : r.statusTime.toNat < 8210266876800
  userDepositAssignedTime : r.userDepositAssignedTime.toNat < 8210266876800
  reduceBondTime : r.atlas.reduceBondTime.toNat < 8210266876800
  lastBondReductionTime : r.atlas.lastBondReductionTime.toNat < 8210266876800
  balance : r.balance.toNat < 2 ^ 255
  nodeRefundBalance : r.nodeRefundBalance.toNat < 2 ^ 255

/-- The reads of a minipool with all fields. -/
def allReads (ν : Network) : List (Read Raw) :=
  r.commonReads ν slot ++ r.atlasReads ν slot ++ r.outsideReads ν slot

theorem reads_sublist (ν : Network) : (r.reads ν slot).Sublist (r.allReads slot ν) := by
  refine List.Sublist.append (List.Sublist.append_left ?_ _) (List.Sublist.refl _)
  split
  · exact List.Sublist.refl _
  · exact List.nil_sublist _

theorem reads_of_legacy (ν : Network) (h : r.version.hasAtlas = false) :
    r.reads ν slot = r.commonReads ν slot ++ r.outsideReads ν slot := by
  simp only [reads, h, Bool.false_eq_true, if_false, List.append_nil]

theorem sound_reads : ∀ ρ ∈ r.reads (.ofAddresses α) slot, ρ.Sound slot (¬ ·.Proper) := by
  suffices all : ∀ ρ ∈ r.allReads slot (.ofAddresses α), ρ.Sound slot (¬ ·.Proper) from
    fun ρ m => all ρ ((r.reads_sublist slot _).mem m)
  simp only [allReads, commonReads, atlasReads, outsideReads, List.forall_mem_append,
    List.forall_mem_cons, List.not_mem_nil, false_implies, implies_true, and_true]
  and_intros <;> refine .of rfl rfl rfl (fun _ _ => rfl) ?_
  all_goals first
    | refine shows_of_none rfl (by decide)
    | refine shows_number rfl (by decide) ?_
      intro y w out p
      exact out ⟨Nat.zero_le _, by cases p; assumption⟩
    | refine shows_key rfl ?_
      intro y b ne l p
      exact p.pubkey.elim ne l

theorem apart_reads (ν : Network) : (r.reads ν slot).Pairwise Apart := by
  refine List.Pairwise.sublist (r.reads_sublist slot ν) ?_
  simp only [allReads, commonReads, atlasReads, outsideReads, List.cons_append, List.nil_append,
    List.pairwise_cons, List.forall_mem_cons, List.not_mem_nil, false_implies, implies_true, and_true,
    List.Pairwise.nil]
  and_intros <;>
    · refine apart_of ?_
      intros
      rfl

theorem keeps_reads (ν : Network) : ∀ ρ ∈ r.reads ν slot, ρ.Keeps fun r => (r.address, r.version) := by
  suffices all : ∀ ρ ∈ r.allReads slot ν, ρ.Keeps fun r => (r.address, r.version) from
    fun ρ m => all ρ ((r.reads_sublist slot ν).mem m)
  simp only [allReads, commonReads, atlasReads, outsideReads, List.forall_mem_append,
    List.forall_mem_cons, List.not_mem_nil, false_implies, implies_true, and_true]
  and_intros <;>
    · refine Read.keeps_of ?_
      intros
      rfl

theorem keeps_atlas (ν : Network) (h : r.version.hasAtlas = false) :
    ∀ ρ ∈ r.reads ν slot, ρ.Keeps Raw.atlas := by
  rw [r.reads_of_legacy slot ν h]
  simp only [commonReads, outsideReads, List.forall_mem_append, List.forall_mem_cons,
    List.not_mem_nil, false_implies, implies_true, and_true]
  and_intros <;>
    · refine Read.keeps_of ?_
      intros
      rfl

end Raw

theorem sound_version (a : Address) :
    (versionRead (.ofAddresses α) slot a).Sound slot fun w => ¬(1 ≤ w.toNat ∧ w.toNat < 4) := by
  refine .of rfl rfl rfl (fun _ _ => rfl) ?_
  exact shows_number rfl (by decide) fun _ _ out => out

theorem sound_shares (F : Shares → Prop) (r : Raw) (amount : Int) :
    ∀ ρ ∈ Shares.reads (.ofAddresses α) slot r amount, ρ.Sound slot F := by
  rw [Shares.reads]
  split
  · exact List.forall_mem_nil _
  · simp only [sharePair, List.forall_mem_cons, List.not_mem_nil, false_implies, implies_true, and_true]
    and_intros <;>
      · refine .of rfl rfl rfl (fun _ _ => rfl) ?_
        exact shows_of_none rfl (by decide)

theorem apart_shares (ν : Network) (r : Raw) (amount : Int) :
    (Shares.reads ν slot r amount).Pairwise Apart := by
  rw [Shares.reads]
  split
  · exact .nil
  · refine List.pairwise_pair.mpr ?_
    exact apart_of fun _ _ _ => rfl

theorem keeps_shares (ν : Network) (r : Raw) (amount : Int) :
    ∀ ρ ∈ Shares.reads ν slot r amount, ρ.Keeps Shares.distributableBalance := by
  rw [Shares.reads]
  split
  · exact List.forall_mem_nil _
  · simp only [sharePair, List.forall_mem_cons, List.not_mem_nil, false_implies, implies_true, and_true]
    and_intros <;> exact Read.keeps_of fun _ _ => rfl

end Minipool

namespace Collection

variable (κ : Collection) (α : Addresses) (slot : Nat)

theorem sound_count : (κ.countRead (.ofAddresses α)).Sound 0 (2 ^ 64 ≤ BitVec.toNat ·) := by
  cases κ <;>
    · refine .of rfl rfl rfl (fun _ _ => rfl) ?_
      refine shows_number rfl (by decide) ?_
      intro _ w out
      exact Nat.le_of_not_lt fun small => out ⟨Nat.zero_le _, small⟩

theorem sound_address (F : Address → Prop) (index : Nat) :
    (κ.addressRead (.ofAddresses α) slot index).Sound slot F := by
  cases κ <;>
    · refine .of rfl rfl rfl (fun _ _ => rfl) ?_
      exact shows_of_none rfl (by decide)

end Collection

end PoolSnapshot
