import PoolSnapshot.Minipool.Details
import PoolSnapshot.Proofs.Survey.Stage

/-!
A minipool's record is its own. Where every call has one outcome, a snapshot of many minipools is the
snapshots of each of them, however they are batched.
-/
namespace PoolSnapshot

namespace Minipool

variable (ν : Network) (f : Call → Outcome)

def probed (a : Address) : Option Word :=
  (versionRead ν 0 a).entry.toOption.map fun e => (e.change? (f e.call)).elim 1 (· 0)

def filled (r : Raw) : Option Raw := Read.apply f r.cleared (r.reads ν 0)

def Shares.begun (amount : Int) : Shares :=
  if amount ≤ 0 then withoutShares amount else { distributableBalance := amount }

def shared (r : Raw) : Option Shares :=
  (Shares.distributable r).toOption.bind fun amount =>
    Read.apply f (Shares.begun amount) (Shares.reads ν 0 r amount)

/-- The whole of one minipool. -/
def snapshot (a : Address) : Option Details := do
  let v ← probed ν f a
  let ω ← (supported a v).toOption
  let r ← filled ν f { address := a, version := ω }
  let s ← shared ν f r
  (Details.assemble r s).toOption

theorem placed_reads : Placed (Raw.reads ν) := by
  intro slot r
  simp only [Raw.reads, List.map_append]
  split <;> rfl

theorem placed_shares : Placed fun slot ((r, amount) : Raw × Int) => Shares.reads ν slot r amount := by
  rintro slot ⟨r, amount⟩
  simp only [Shares.reads]
  split <;> rfl

theorem withFallback_answers (c : α → Option (Word → Word)) (es : List α) :
    withFallback (es.map fun e => (c e).isSome)
        (List.zipWith (fun e x => (c e).elim x (· x)) es (List.replicate es.length 0)) =
      es.map fun e => (c e).elim 1 (· 0) := by
  induction es with
  | nil => rfl
  | cons e es ih =>
    simp only [withFallback, List.map_cons, List.length_cons, List.replicate_succ,
      List.zipWith_cons_cons] at ih ⊢
    rw [ih]
    cases c e <;> rfl

theorem Shares.zipWith_replicate {rs : List Raw} {amounts : List Int} (h : rs.length = amounts.length) :
    List.zipWith (fun (s : Shares) amount => if amount ≤ 0 then withoutShares amount
        else { s with distributableBalance := amount }) (List.replicate rs.length {}) amounts =
      (rs.zip amounts).map fun p => begun p.2 := by
  induction rs generalizing amounts with
  | nil => rfl
  | cons r rs ih =>
    cases amounts with
    | nil => contradiction
    | cons amount amounts =>
      simp only [List.length_cons, List.replicate_succ, List.zipWith_cons_cons, List.zip_cons_cons,
        List.map_cons, ih (Nat.succ.inj h)]
      rfl

end Minipool

namespace Survey

open Minipool (Raw Shares Details)

variable {f : Call → Outcome} {reason : Request → String} (ς : Survey)

theorem toOption_minipoolVersions (addresses : List Address) :
    ((ς.minipoolVersions addresses).eval (pointwise f reason)).toOption =
      addresses.mapM (Minipool.probed ς.network f) := by
  apply ς.toOption_inChunks (List.length_replicate).symm
  intro r _
  rw [Range.part_replicate]
  refine (Read.result_probe (Minipool.versionRead ς.network 0) rfl (List.length_replicate).symm _
    _).trans ?_
  refine Eq.trans ?_ (Traverse.map_mapM _ _ _)
  cases g : (r.part addresses).mapM fun a => (Minipool.versionRead ς.network 0 a).entry.toOption with
  | none => rfl
  | some es =>
    rw [(Traverse.mapM_eq_some.mp g).length_eq]
    exact congrArg some (Minipool.withFallback_answers (fun e => e.change? (f e.call)) es)

theorem toOption_minipoolRaw (raw : List Raw) :
    ((ς.minipoolRaw raw).eval (pointwise f reason)).toOption =
      raw.mapM (Minipool.filled ς.network f) := by
  apply ς.toOption_inChunks rfl
  intro r _
  have length : (r.part raw).length = ((r.part raw).map Raw.cleared).length :=
    (List.length_map _).symm
  refine (Read.result_readEach (Minipool.placed_reads ς.network) length _ _).trans ?_
  exact Traverse.mapM_zip_map _ Raw.cleared (r.part raw)

theorem result_shares (rs : List Raw) :
    (Shares.worker ς rs).result (pointwise f reason) (List.replicate rs.length {}) =
      rs.mapM (Minipool.shared ς.network f) := by
  refine Eq.trans ?_ (Traverse.mapM_bind_zip (fun r => (Shares.distributable r).toOption)
    (fun p => Read.apply f (Shares.begun p.2) (Shares.reads ς.network 0 p.1 p.2)) rs)
  rw [← Traverse.toOption_mapM, Shares.worker]
  cases settled : rs.mapM Shares.distributable with
  | error e => rfl
  | ok amounts =>
    have length : rs.length = amounts.length := by
      have all := Traverse.toOption_mapM Shares.distributable rs
      rw [settled] at all
      exact (Traverse.mapM_eq_some.mp all.symm).length_eq
    change Worker.result _ _ (List.zipWith _ _ _) = _
    rw [Minipool.Shares.zipWith_replicate length]
    refine (Read.result_readEach (Minipool.placed_shares ς.network) (List.length_map _).symm _
      _).trans ?_
    exact Traverse.mapM_zip_map _ _ (rs.zip amounts)

theorem toOption_minipoolShares (raw : List Raw) :
    ((ς.minipoolShares raw).eval (pointwise f reason)).toOption =
      raw.mapM (Minipool.shared ς.network f) := by
  apply ς.toOption_inChunks (List.length_replicate).symm
  intro r _
  rw [Range.part_replicate]
  exact result_shares ς (r.part raw)

def started (p : Address × Word) : Option Raw :=
  (Minipool.supported p.1 p.2).toOption.map fun ω => { address := p.1, version := ω }

theorem toOption_startRecords (addresses : List Address) (versions : List Word) :
    (startRecords addresses versions).toOption = (addresses.zip versions).mapM started := by
  rw [startRecords, Traverse.toOption_mapM]
  congr 1
  funext ⟨a, v⟩
  simp only [started]
  cases Minipool.supported a v <;> rfl

theorem toOption_assembleAll (rs : List Raw) (ss : List Shares) :
    (Details.assembleAll rs ss).toOption =
      (rs.zip ss).mapM fun p => (Details.assemble p.1 p.2).toOption := by
  rw [Details.assembleAll, Traverse.toOption_mapM]

theorem toOption_minipoolsFor (addresses : List Address) :
    ((ς.minipoolsFor addresses).eval (pointwise f reason)).toOption =
      addresses.mapM (Minipool.snapshot ς.network f) := by
  rw [minipoolsFor]
  simp only [Program.eval_bind, Program.eval_lift, Traverse.toOption_bind, toOption_minipoolVersions,
    toOption_startRecords, toOption_minipoolRaw, toOption_minipoolShares, toOption_assembleAll,
    Traverse.mapM_bind_zip, Traverse.mapM_bind_mapM, started]
  apply congrArg (List.mapM · addresses)
  funext a
  simp only [Minipool.snapshot, Option.bind_map]
  rfl

theorem toOption_minipool (a : Address) :
    ((ς.minipool a).eval (pointwise f reason)).toOption = Minipool.snapshot ς.network f a := by
  rw [minipool, Program.eval_bind, Traverse.toOption_bind, toOption_minipoolsFor, List.mapM_cons,
    List.mapM_nil]
  cases Minipool.snapshot ς.network f a <;> rfl

theorem minipool_returns_iff (a : Address) (d : Details) :
    (ς.minipool a).Returns (pointwise f reason) d ↔ Minipool.snapshot ς.network f a = some d := by
  rw [Program.returns_iff, ← Traverse.toOption_eq_some, toOption_minipool]

theorem minipoolsFor_returns_iff (addresses : List Address) (ds : List Details) :
    (ς.minipoolsFor addresses).Returns (pointwise f reason) ds ↔
      List.Forall₂ (fun a d => Minipool.snapshot ς.network f a = some d) addresses ds := by
  rw [Program.returns_iff, ← Traverse.toOption_eq_some, toOption_minipoolsFor, Traverse.mapM_eq_some]

theorem exists_run {addresses : List Address} {ds : List Details}
    (h : List.Forall₂ (fun a d => Minipool.snapshot ς.network f a = some d) addresses ds) :
    ∃ asked, (ς.minipoolsFor addresses).Run asked (.ok ds) := by
  have returns : (ς.minipoolsFor addresses).Returns (pointwise f fun _ => "") ds :=
    (minipoolsFor_returns_iff ς addresses ds).mpr h
  obtain ⟨⟨r, asked, run, answered⟩, only⟩ := returns
  cases only r ⟨asked, run, answered⟩
  exact ⟨asked, run⟩

/-- Many minipools read together are the same minipools read one at a time. Batches, versions and
neighbours do not show, and no order of moves does, nor the waiting on a clock. -/
theorem minipoolsFor_each (f : Call → Outcome) (reason : Request → String) (ς : Survey) (β : Batching)
    (addresses : List Address) :
    let answer := pointwise f reason
    let together := { ς with batching := β }.minipoolsFor addresses
    ((∃ ds, together.Returns answer ds) ↔
      ∀ a ∈ addresses, ∃ d, (ς.minipool a).Returns answer d) ∧
    (∀ ds, together.Returns answer ds → ds.length = addresses.length ∧
      ∀ (i : Nat) a d, addresses[i]? = some a → ds[i]? = some d → (ς.minipool a).Returns answer d) ∧
    ((¬∃ ds, together.Returns answer ds) → ∀ r, together.Comes answer r → ∃ e, r = .error e) ∧
    ∀ (σ : Type) (peer : Clock.Peer σ Request Reply), (∀ now q s, (peer now q s).2.1 = answer q) →
      ∀ now s ds, (together.exec peer now s).2.2 = .ok ds ↔ together.Returns answer ds := by
  intro answer together
  refine ⟨?exactly, ?aligned, ?fails, ?clock⟩
  case exactly =>
    simp only [together, answer, minipoolsFor_returns_iff, minipool_returns_iff]
    exact Traverse.exists_forall₂
  case aligned =>
    intro ds h
    have each := (minipoolsFor_returns_iff _ addresses ds).mp h
    refine ⟨each.length_eq.symm, ?_⟩
    intro i a d ha hd
    obtain ⟨l, rfl⟩ := List.getElem?_eq_some_iff.mp ha
    obtain ⟨l', rfl⟩ := List.getElem?_eq_some_iff.mp hd
    exact (minipool_returns_iff ς _ _).mpr (each.get l l')
  case fails => exact fun no r h => h.fails no
  case clock =>
    intro σ peer always now s ds
    rw [Program.returns_iff]
    exact Program.exec_ok_iff always together now s ds

end Survey

end PoolSnapshot
