import PoolSnapshot.Proofs.Minipool.Stages

/-!
Snapshots agree with themselves, even when the node lies: what was read once is not asked for twice, so
that no answer can set one part of a record against another.
-/
namespace PoolSnapshot

open Minipool (Raw Shares Details)

namespace Minipool.Details

/-- What every record of a minipool is sure to be. -/
structure Consistent (a : Address) (d : Details) : Prop where
  address : d.address = a
  legacy : d.version = .v1 ∨ d.version = .v2 → d.WithoutAtlas
  balance : d.balance.toNat < 2 ^ 255
  nodeRefundBalance : d.nodeRefundBalance.toNat < 2 ^ 255
  distributable : d.distributableBalance = (d.balance.toNat : Int) - d.nodeRefundBalance.toNat
  shares : d.distributableBalance ≤ 0 → d.nodeShareOfBalance = 0 ∧ d.userShareOfBalance = 0
  pubkey : ∀ k, d.pubkey = some k → k.bytes.length = 48
  times : ∀ t ∈ d.seconds, t ≤ 8210266876799

theorem consistent {raw r : Raw} {s : Shares} {d : Details} (k : raw.Kept r) (o : Shares.Of r s)
    (t : Assembled r s d) : d.Consistent raw.address := by
  have shares := t.shares
  obtain ⟨balance, refund, amount⟩ := distributable_eq_ok o.1
  refine ⟨t.address.trans k.address, ?legacy, ?balance, ?refund, ?distributable, ?shares, ?pubkey, ?times⟩
  case legacy =>
    intro old
    refine t.atlas (k.atlas ?_)
    rw [← k.version, ← t.version]
    rcases old with v | v <;> rw [v] <;> rfl
  case balance => exact t.balance ▸ balance
  case refund => exact t.nodeRefundBalance ▸ refund
  case distributable =>
    rw [t.balance, t.nodeRefundBalance, ← amount, ← shares]
  case shares =>
    intro low
    have none := o.2
    rw [← shares] at none
    injection none low with _ node user
    exact ⟨node, user⟩
  case pubkey => exact fun k _ => k.length_eq
  case times => exact fun n m => Nat.le_of_lt_succ (t.seconds n m)

end Minipool.Details

namespace Survey

variable {ς : Survey} {addresses : List Address}

/-- Whatever the node answers, a snapshot has a record for each address, and no record contradicts
itself. -/
theorem minipoolsFor_consistent (ς : Survey) (addresses : List Address)
    (h : (ς.minipoolsFor addresses).Run asked (.ok ds)) :
    ds.length = addresses.length ∧
      ∀ (i : Nat) a d, addresses[i]? = some a → ds[i]? = some d → d.Consistent a := by
  obtain ⟨parts, course, -⟩ := h.course
  obtain ⟨_, ws, raw, _, raws, _, ss, -, v, start, details, shares, all⟩ :=
    (stages_of_course course).of_ok
  have each := Traverse.forall₂_trans (starts v start)
    (Traverse.forall₂_trans (kept_minipoolRaw details) (finishes shares all))
  refine Traverse.forall₂_iff_getElem?.mp (each.imp ?_)
  rintro _ d ⟨raw, rfl, r, k, s, o, t⟩
  exact Details.consistent k o t

/-- A balance of five and a refund of one. -/
theorem minipoolsFor_consistent_refund :
    let ς : Survey := ⟨.ofAddresses ⟨1, 2, 3, 4, 5, 6, 7, 8, 9⟩, {}, 0⟩
    ∃ asked d, (ς.minipoolsFor [10]).Run asked (.ok [d]) ∧ d.distributableBalance = 4 ∧
      d.Consistent 10 := by
  intro ς
  let f (c : Call) : Outcome :=
    ⟨true, Abi.word (if c.target = 2 then 5 else if c.target = 10 then 1 else 0)⟩
  obtain ⟨d, taken, amount⟩ : ∃ d, Minipool.snapshot ς.network f 10 = some d ∧ d.distributableBalance = 4 :=
    Option.map_eq_some_iff.mp (by subst ς f; rfl)
  obtain ⟨asked, run⟩ := ς.exists_run (.cons taken .nil)
  exact ⟨asked, d, run, amount, (minipoolsFor_consistent ς [10] run).2 0 10 d rfl rfl⟩

end Survey

end PoolSnapshot
