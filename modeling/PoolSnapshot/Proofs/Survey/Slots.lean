import PoolSnapshot.Proofs.Survey.Queued
import PoolSnapshot.Proofs.Text.Lossy

/-!
Slots of the storage contract. Different values are kept under hashes of different bytes, so that a slot that is
read for two of them is a collision of the hash.
-/
namespace PoolSnapshot

open Minipool (Raw Shares CompleteShares)
open OracleDao (MemberRaw SettingsRaw)

theorem Bytes.ofText_inj {s t : String} : ofText s = ofText t ↔ s = t := by
  refine ⟨fun same => ?_, congrArg ofText⟩
  rw [← Text.lossy_ofText s, same, Text.lossy_ofText]

theorem Address.bytes_inj {a b : Address} : a.bytes = b.bytes ↔ a = b := by
  refine ⟨fun same => ?_, congrArg bytes⟩
  rw [← ofBytes_bytes a, same, ofBytes_bytes]

theorem Hash.bytes_inj {h k : Hash} : h.bytes = k.bytes ↔ h = k := by
  refine ⟨fun same => ?_, congrArg bytes⟩
  rw [← ofBytes_bytes h, same, ofBytes_bytes]

/-- Different messages with one hash. -/
structure Keccak.Collide (x y : Bytes) : Prop where
  ne : x ≠ y
  same : hash x = hash y

namespace StorageKey

/-- The address has a fixed length, so the name is what stands before it. -/
theorem perAddress_inj {p q : String} {a b : Address} :
    perAddress p a = perAddress q b ↔ p = q ∧ a = b := by
  constructor
  · intro same
    obtain ⟨name, address⟩ := List.append_inj' same ((Address.length_bytes a).trans (Address.length_bytes b).symm)
    exact ⟨Bytes.ofText_inj.mp name, Address.bytes_inj.mp address⟩
  · rintro ⟨rfl, rfl⟩
    rfl

theorem contractAddress_inj {m n : String} : contractAddress m = contractAddress n ↔ m = n := by
  rw [contractAddress, contractAddress, List.append_cancel_left_eq, Bytes.ofText_inj]

/-- The names of contracts begin with a `c`. -/
theorem perAddress_ne_contractAddress {p : String} (first : (Bytes.ofText p).head? = some c) (other : c ≠ 0x63)
    (a : Address) (n : String) : perAddress p a ≠ contractAddress n := by
  intro same
  have letter : (Bytes.ofText "contract.address").head? = some 0x63 := by decide +kernel
  have heads := congrArg List.head? same
  rw [perAddress, contractAddress, List.head?_append, List.head?_append, first, letter] at heads
  exact other (Option.some.inj heads)

theorem penaltyCount_ne_contract (a : Address) (n : String) : perAddress penaltyCount a ≠ contractAddress n :=
  perAddress_ne_contractAddress (c := 0x6e) (by decide +kernel) (by decide) a n

theorem penaltyRate_ne_contract (a : Address) (n : String) : perAddress penaltyRate a ≠ contractAddress n :=
  perAddress_ne_contractAddress (c := 0x6d) (by decide +kernel) (by decide) a n

/-- What the storage contract keeps under hashes: the penalties of each minipool, and where each contract is. -/
inductive Purpose where
  | penaltyCount (minipool : Address)
  | penaltyRate (minipool : Address)
  | contract (name : String)

namespace Purpose

def preimage : Purpose → Bytes
  | penaltyCount a => perAddress StorageKey.penaltyCount a
  | penaltyRate a => perAddress StorageKey.penaltyRate a
  | contract n => contractAddress n

def key (u : Purpose) : Hash := Keccak.hash u.preimage

theorem preimage_inj {u u' : Purpose} : u.preimage = u'.preimage ↔ u = u' := by
  refine ⟨fun same => ?_, congrArg preimage⟩
  have fields : StorageKey.penaltyCount ≠ StorageKey.penaltyRate := by decide
  cases u with
  | penaltyCount a =>
    cases u' with
    | penaltyCount b => rw [(perAddress_inj.mp same).2]
    | penaltyRate b => exact absurd (perAddress_inj.mp same).1 fields
    | contract n => exact absurd same (penaltyCount_ne_contract a n)
  | penaltyRate a =>
    cases u' with
    | penaltyCount b => exact absurd (perAddress_inj.mp same).1.symm fields
    | penaltyRate b => rw [(perAddress_inj.mp same).2]
    | contract n => exact absurd same (penaltyRate_ne_contract a n)
  | contract m =>
    cases u' with
    | penaltyCount b => exact absurd same.symm (penaltyCount_ne_contract b m)
    | penaltyRate b => exact absurd same.symm (penaltyRate_ne_contract b m)
    | contract n => rw [contractAddress_inj.mp same]

theorem eq_or_collide {u u' : Purpose} (same : u.key = u'.key) : u = u' ∨ Keccak.Collide u.preimage u'.preimage := by
  by_cases equal : u.preimage = u'.preimage
  · exact .inl (preimage_inj.mp equal)
  · exact .inr ⟨equal, same⟩

end Purpose

end StorageKey

open StorageKey (Purpose)

namespace Read

/-- The slot of the storage contract that a read is of. -/
def slot? (ρ : Read R) : Option Bytes :=
  match ρ.contract.name, ρ.args with
  | "rocketStorage", [.fixedBytes b] => some b
  | _, _ => none

/-- The read for a purpose. -/
inductive For : {R : Type} → Read R → Purpose → Prop
  | penaltyCount (α : Addresses) (i : Nat) (r : Raw) :
      For (r.stored (.ofAddresses α) i StorageKey.penaltyCount fun d v => { d with penaltyCount := v })
        (.penaltyCount r.address)
  | penaltyRate (α : Addresses) (i : Nat) (r : Raw) :
      For (r.stored (.ofAddresses α) i StorageKey.penaltyRate fun d v => { d with penaltyRate := v })
        (.penaltyRate r.address)
  | contract (storage : Address) (i : Nat) (ι : Interface) :
      For (.of i ⟨.storage, storage⟩ "getAddress" [.fixedBytes (StorageKey.ofContract ι.name).bytes]
        fun _ (a : Address) => a) (.contract ι.name)

theorem For.slot_eq {ρ : Read R} (h : ρ.For u) : ρ.slot? = some u.key.bytes := by
  cases h <;> rfl

/-- Whatever is read of the storage contract is read for some purpose. -/
def Purposeful (ρ : Read R) : Prop := ρ.slot? = none ∨ ∃ u, ρ.For u

end Read

namespace Minipool

variable (α : Addresses) (i : Nat)

theorem purposeful_reads (r : Raw) : ∀ ρ ∈ r.reads (.ofAddresses α) i, ρ.Purposeful := by
  suffices all : ∀ ρ ∈ r.allReads i (.ofAddresses α), ρ.Purposeful from
    fun ρ m => all ρ ((r.reads_sublist i _).mem m)
  rw [Raw.allReads, List.forall_mem_append, List.forall_mem_append]
  refine ⟨⟨?common, ?atlas⟩, ?outside⟩
  case outside =>
    simp only [Raw.outsideReads, List.forall_mem_cons, List.not_mem_nil, false_implies, implies_true, and_true]
    exact ⟨.inr ⟨_, .penaltyCount α i r⟩, .inr ⟨_, .penaltyRate α i r⟩, .inl rfl, .inl rfl⟩
  all_goals
    simp only [Raw.commonReads, Raw.atlasReads, List.forall_mem_cons, List.not_mem_nil, false_implies,
      implies_true, and_true]
    and_intros <;> exact .inl rfl

theorem slots_reads (r : Raw) : (r.reads (.ofAddresses α) i).filterMap Read.slot? =
    [(Purpose.penaltyCount r.address).key.bytes, (Purpose.penaltyRate r.address).key.bytes] := by
  have common : (r.commonReads (.ofAddresses α) i).filterMap Read.slot? = [] := rfl
  have atlas : (if r.version.hasAtlas then r.atlasReads (.ofAddresses α) i else []).filterMap Read.slot? = [] := by
    split <;> rfl
  rw [Raw.reads, List.filterMap_append, List.filterMap_append, common, atlas, Raw.outsideReads,
    List.filterMap_cons_some (Read.For.penaltyCount α i r).slot_eq,
    List.filterMap_cons_some (Read.For.penaltyRate α i r).slot_eq]
  rfl

theorem purposeful_sharePair {R : Type} {node user : R → Word → R} :
    ∀ ρ ∈ sharePair (.ofAddresses α) i a amount node user, ρ.Purposeful := by
  simp only [sharePair, List.forall_mem_cons, List.not_mem_nil, false_implies, implies_true, and_true]
  exact ⟨.inl rfl, .inl rfl⟩

end Minipool

theorem OracleDao.MemberRaw.purposeful_reads (α : Addresses) (i : Nat) (a : Address) :
    ∀ ρ ∈ reads (.ofAddresses α) i a, ρ.Purposeful := by
  simp only [reads, List.forall_mem_cons, List.not_mem_nil, false_implies, implies_true, and_true]
  and_intros <;> exact .inl rfl

theorem OracleDao.SettingsRaw.purposeful_reads (α : Addresses) :
    ∀ ρ ∈ reads (.ofAddresses α), ρ.Purposeful := by
  simp only [reads, List.forall_mem_cons, List.not_mem_nil, false_implies, implies_true, and_true]
  and_intros <;> exact .inl rfl

namespace Read

variable {R : Type} {ρ : Read R}

theorem Queued.purposeful (h : ρ.Queued mode i) : ρ.Purposeful := by
  cases h with
  | contract m =>
    obtain ⟨⟨ι, slot⟩, -, rfl⟩ := List.mem_map.mp m
    exact .inr ⟨_, .contract _ slot ι⟩
  | count α κ => cases κ <;> exact .inl rfl
  | address α κ => cases κ <;> exact .inl rfl
  | version => exact .inl rfl
  | details m => exact Minipool.purposeful_reads _ _ _ _ m
  | shares m =>
    rw [Shares.reads] at m
    split at m
    · cases m
    · exact Minipool.purposeful_sharePair _ _ _ m
  | completeShares m =>
    rw [CompleteShares.beaconReads, CompleteShares.totalReads, List.mem_append] at m
    rcases m with m | m
    all_goals
      split at m
      · cases m
      · exact Minipool.purposeful_sharePair _ _ _ m
  | member m => exact MemberRaw.purposeful_reads _ _ _ _ m
  | settings m => exact SettingsRaw.purposeful_reads _ _ m
  | challenge => exact .inl rfl

/-- A read that takes the slot of a purpose is the read for it, unless the hash collides. -/
theorem Queued.for_or_collide (h : ρ.Queued mode i) (slot : ρ.slot? = some u.key.bytes) :
    ρ.For u ∨ ∃ u', ρ.For u' ∧ Keccak.Collide u.preimage u'.preimage := by
  obtain none | ⟨u', own⟩ := h.purposeful
  · cases none.symm.trans slot
  · have same := Option.some.inj (slot.symm.trans own.slot_eq)
    obtain rfl | collide := Purpose.eq_or_collide (Hash.bytes_inj.mp same)
    · exact .inl own
    · exact .inr ⟨u', own, collide⟩

end Read

/-- What is hashed shows what for: the name and the address, or the name of the contract. Of all reads of a
minipool two are of the storage contract, for its penalties, and no other read that is ever queued takes one of
their slots, unless the hash collides. -/
theorem storage_slots_apart :
    (∀ p q a b, StorageKey.perAddress p a = StorageKey.perAddress q b ↔ p = q ∧ a = b) ∧
    (∀ m n, StorageKey.contractAddress m = StorageKey.contractAddress n ↔ m = n) ∧
    (∀ p ∈ [StorageKey.penaltyCount, StorageKey.penaltyRate], ∀ a n,
      StorageKey.perAddress p a ≠ StorageKey.contractAddress n) ∧
    (∀ u u' : Purpose, u.key = u'.key ↔ u = u' ∨ Keccak.Collide u.preimage u'.preimage) ∧
    (∀ (α : Addresses) i (r : Raw), (r.reads (.ofAddresses α) i).filterMap Read.slot? =
      [(Purpose.penaltyCount r.address).key.bytes, (Purpose.penaltyRate r.address).key.bytes]) ∧
    ∀ (R : Type) mode i (ρ : Read R) (u : Purpose), ρ.Queued mode i → ρ.slot? = some u.key.bytes →
      ρ.For u ∨ ∃ u', ρ.For u' ∧ Keccak.Collide u.preimage u'.preimage := by
  refine ⟨fun _ _ _ _ => StorageKey.perAddress_inj, fun _ _ => StorageKey.contractAddress_inj, ?names, ?keys,
    Minipool.slots_reads, fun _ _ _ _ _ => Read.Queued.for_or_collide⟩
  case names =>
    simp only [List.forall_mem_cons, List.not_mem_nil, false_implies, implies_true, and_true]
    exact ⟨StorageKey.penaltyCount_ne_contract, StorageKey.penaltyRate_ne_contract⟩
  case keys =>
    refine fun u u' => ⟨Purpose.eq_or_collide, ?_⟩
    rintro (rfl | collide)
    · rfl
    · exact collide.same

/-- The penalties of one minipool are at different slots, and neither is at that of the next minipool. -/
theorem storage_slots_apart_neighbours :
    let ν : Network := .ofAddresses ⟨1, 2, 3, 4, 5, 6, 7, 8, 9⟩
    let count (a : Address) : Read Raw :=
      ({ address := a, version := .v1 } : Raw).stored ν 0 StorageKey.penaltyCount fun d v => { d with penaltyCount := v }
    (count 10).slot? = some (Purpose.penaltyCount 10).key.bytes ∧
      ((count 10).For (.penaltyCount 10) ∨
        ∃ u', (count 10).For u' ∧ Keccak.Collide (Purpose.penaltyCount 10).preimage u'.preimage) ∧
      (count 10).slot? ≠ (count 11).slot? ∧ (Purpose.penaltyCount 10).key ≠ (Purpose.penaltyRate 10).key ∧
      StorageKey.perAddress "ab" 10 ≠ StorageKey.perAddress "a" 10 := by
  intro ν count
  obtain ⟨names, -, -, -, -, apart⟩ := storage_slots_apart
  have own : (count 10).slot? = some (Purpose.penaltyCount 10).key.bytes := (Read.For.penaltyCount _ _ _).slot_eq
  have next : (count 11).slot? = some (Purpose.penaltyCount 11).key.bytes := (Read.For.penaltyCount _ _ _).slot_eq
  have queued : (count 10).Queued .strict 0 :=
    .details (List.mem_append_right _ List.mem_cons_self)
  have keys : (Purpose.penaltyCount 10).key ≠ (Purpose.penaltyCount 11).key := by decide +kernel
  refine ⟨own, apart _ _ _ _ _ queued own, fun same => ?_, by decide +kernel, fun same => ?_⟩
  · exact keys (Hash.bytes_inj.mp (Option.some.inj (own.symm.trans (same.trans next))))
  · exact absurd ((names _ _ _ _).mp same).1 (by decide)

end PoolSnapshot
