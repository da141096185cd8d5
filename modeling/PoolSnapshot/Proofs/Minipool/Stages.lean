import PoolSnapshot.Proofs.Minipool.Probes
import PoolSnapshot.Proofs.Minipool.Reads

/-!
The stages of a snapshot of minipools, and what each leaves when it goes through, whatever the node
answered.
-/
namespace PoolSnapshot

open Minipool (Raw Shares Details)

namespace Minipool

/-- What reading keeps of a record: whose it is, and that an old minipool has none of the new fields. -/
structure Raw.Kept (r r' : Raw) : Prop where
  address : r'.address = r.address
  version : r'.version = r.version
  atlas : r.version.hasAtlas = false → r'.atlas = {}

/-- Shares of a record's own amount, and none of an amount that is not positive. -/
def Shares.Of (r : Raw) (s : Shares) : Prop :=
  distributable r = .ok s.distributableBalance ∧
    (s.distributableBalance ≤ 0 → s = withoutShares s.distributableBalance)

theorem Raw.kept_cleared (r : Raw) : r.Kept r.cleared := by
  cases h : r.version.hasAtlas with
  | true =>
    simp only [cleared, h, if_true]
    refine ⟨rfl, rfl, ?_⟩
    intro legacy
    rw [h] at legacy
    cases legacy
  | false =>
    simp only [cleared, h, Bool.false_eq_true, if_false]
    exact ⟨rfl, rfl, fun _ => rfl⟩

theorem Raw.kept_reads (ν : Network) (slot : Nat) (r : Raw) :
    ∀ ρ ∈ r.reads ν slot, ∀ g, Store.Changes ρ.store g → ∀ y, r.Kept y → r.Kept (g y) := by
  intro ρ m g c y k
  have own := Prod.mk.inj (r.keeps_reads slot ν ρ m g c y)
  refine ⟨own.1.trans k.address, own.2.trans k.version, ?_⟩
  intro legacy
  exact (r.keeps_atlas slot ν legacy ρ m g c y).trans (k.atlas legacy)

namespace Shares

variable {r : Raw} {amount : Int}

theorem of_begun (h : distributable r = .ok amount) : Of r (begun amount) := by
  rw [begun]
  split
  · exact ⟨h, fun _ => rfl⟩
  · next positive => exact ⟨h, fun low => absurd low positive⟩

theorem of_reads (h : distributable r = .ok amount) (ν : Network) (slot : Nat) :
    ∀ ρ ∈ reads ν slot r amount, ∀ g, Store.Changes ρ.store g → ∀ s, Of r s → Of r (g s) := by
  intro ρ m g c s own
  have same := keeps_shares slot ν r amount ρ m g c s
  refine ⟨own.1.trans (congrArg Except.ok same.symm), ?_⟩
  intro low
  rw [same] at low
  cases h.symm.trans own.1
  rw [reads, if_pos low] at m
  cases m

end Shares

theorem code_of_ofCode? [Coded α] {a : α} (h : Coded.ofCode? n = some a) : Coded.code a = n := by
  simpa using List.find?_some h

theorem supported_eq_ok {a : Address} {v : Word} {ω : Version} (h : supported a v = .ok ω) :
    1 ≤ v.toNat ∧ v.toNat < 4 := by
  rw [supported] at h
  split at h
  · next c =>
    rw [← code_of_ofCode? c]
    cases h
    cases ω <;> decide
  · cases h

theorem below_eq_ok {w : Word} : w.below bound = .ok n ↔ n = w.toNat ∧ w.toNat < bound := by
  rw [Word.below]
  split
  · next lt => exact ⟨fun h => ⟨(Except.ok.inj h).symm, lt⟩, fun h => congrArg Except.ok h.1.symm⟩
  · next ge => exact ⟨nofun, fun h => absurd h.2 ge⟩

/-- A difference of numbers that both fit a sign, exactly. -/
theorem difference_eq_ok {w v : Word} {n : Int} :
    w.difference v = .ok n ↔
      w.toNat < 2 ^ 255 ∧ v.toNat < 2 ^ 255 ∧ n = (w.toNat : Int) - v.toNat := by
  simp only [Word.difference, Traverse.bind_eq_ok, below_eq_ok]
  constructor
  · rintro ⟨_, ⟨rfl, lw⟩, _, ⟨rfl, lv⟩, ⟨⟩⟩
    exact ⟨lw, lv, rfl⟩
  · rintro ⟨lw, lv, rfl⟩
    exact ⟨_, ⟨rfl, lw⟩, _, ⟨rfl, lv⟩, rfl⟩

theorem toTime_eq_ok {w : Word} {t : Timestamp} (h : w.toTime = .ok t) :
    t.seconds = w.toNat ∧ w.toNat < 8210266876800 := by
  obtain ⟨s, below, h⟩ := Traverse.bind_eq_ok.mp h
  obtain ⟨rfl, -⟩ := below_eq_ok.mp below
  split at h
  · next le =>
    cases h
    exact ⟨rfl, Nat.lt_succ_of_le le⟩
  · cases h

theorem distributable_eq_ok {r : Raw} (h : Shares.distributable r = .ok amount) :
    r.balance.toNat < 2 ^ 255 ∧ r.nodeRefundBalance.toNat < 2 ^ 255 ∧
      amount = (r.balance.toNat : Int) - r.nodeRefundBalance.toNat :=
  difference_eq_ok.mp (Traverse.mapError_eq_ok.mp h)

end Minipool

namespace Minipool.Details

/-- None of the fields that came with the third version. -/
structure WithoutAtlas (d : Details) : Prop where
  userDistributed : d.userDistributed = false
  isVacant : d.isVacant = false
  preMigrationBalance : d.preMigrationBalance = 0
  reduceBondTime : d.reduceBondTime.seconds = 0
  reduceBondValue : d.reduceBondValue = 0
  reduceBondCancelled : d.reduceBondCancelled = false
  lastBondReductionTime : d.lastBondReductionTime.seconds = 0
  lastBondReductionPrevValue : d.lastBondReductionPrevValue = 0
  lastBondReductionPrevNodeFee : d.lastBondReductionPrevNodeFee = 0

/-- The seconds of every time of the record. -/
def seconds (d : Details) : List Nat :=
  [d.statusTime.seconds, d.userDepositAssignedTime.seconds, d.reduceBondTime.seconds,
    d.lastBondReductionTime.seconds]

/-- What an assembled record takes over, and the values that it was assembled from. -/
structure Assembled (r : Raw) (s : Shares) (d : Details) : Prop where
  address : d.address = r.address
  version : d.version = r.version
  balance : d.balance = r.balance
  nodeRefundBalance : d.nodeRefundBalance = r.nodeRefundBalance
  shares : (⟨d.distributableBalance, d.nodeShareOfBalance, d.userShareOfBalance⟩ : Shares) = s
  atlas : r.atlas = {} → d.WithoutAtlas
  seconds : ∀ t ∈ d.seconds, t < 8210266876800
  proper : r.balance.toNat < 2 ^ 255 → r.nodeRefundBalance.toNat < 2 ^ 255 → r.Proper

variable {r : Raw} {s : Shares} {d : Details}

theorem coded_eq_ok [Coded α] {a : α} {w : Word} (h : coded r field w = .ok a) :
    Coded.code a = w.toNat := by
  rw [coded] at h
  split at h
  · next c =>
    cases h
    exact code_of_ofCode? c
  · cases h

theorem key_eq_ok (h : key r = .ok k) : r.pubkey = [] ∨ r.pubkey.length = 48 := by
  by_cases none : r.pubkey.isEmpty
  · exact .inl (List.isEmpty_iff.mp none)
  · by_cases l : r.pubkey.length = 48
    · exact .inr l
    · simp only [key, none, Pubkey.ofBytes?, l, dif_neg, not_false_eq_true, Bool.false_eq_true,
        if_false] at h
      cases h

theorem time_eq_ok {w : Word} (h : time r field w = .ok t) :
    t.seconds = w.toNat ∧ w.toNat < 8210266876800 :=
  toTime_eq_ok (Traverse.mapError_eq_ok.mp h)

theorem block_eq_ok {w : Word} (h : block r field w = .ok n) : w.toNat < 2 ^ 64 :=
  (below_eq_ok.mp (Traverse.mapError_eq_ok.mp h)).2

theorem assembled (h : assemble r s = .ok d) : Assembled r s d := by
  simp only [assemble, Traverse.bind_eq_ok] at h
  obtain ⟨status, hs, deposit, hd, k, hk, block, hb, st, hst, dt, hdt, bt, hbt, lt, hlt, h⟩ := h
  cases h
  have status_lt : r.status.toNat < 5 := by
    rw [← coded_eq_ok hs]
    cases status <;> decide
  have deposit_lt : r.depositType.toNat < 5 := by
    rw [← coded_eq_ok hd]
    cases deposit <;> decide
  obtain ⟨st_eq, st_lt⟩ := time_eq_ok hst
  obtain ⟨dt_eq, dt_lt⟩ := time_eq_ok hdt
  obtain ⟨bt_eq, bt_lt⟩ := time_eq_ok hbt
  obtain ⟨lt_eq, lt_lt⟩ := time_eq_ok hlt
  refine ⟨rfl, rfl, rfl, rfl, rfl, ?atlas, ?seconds, ?proper⟩
  case atlas =>
    intro none
    rw [none] at bt_eq lt_eq
    simp only [none]
    exact ⟨rfl, rfl, rfl, bt_eq, rfl, rfl, lt_eq, rfl, rfl⟩
  case seconds =>
    simp only [seconds, List.forall_mem_cons, List.not_mem_nil, false_implies, implies_true, and_true]
    exact ⟨st_eq ▸ st_lt, dt_eq ▸ dt_lt, bt_eq ▸ bt_lt, lt_eq ▸ lt_lt⟩
  case proper =>
    intro balance refund
    exact ⟨status_lt, deposit_lt, key_eq_ok hk, block_eq_ok hb, st_lt, dt_lt, bt_lt, lt_lt, balance,
      refund⟩

theorem assembled_all {rs : List Raw} {ss : List Shares} {ds : List Details}
    (h : assembleAll rs ss = .ok ds) :
    List.Forall₂ (fun (p : Raw × Shares) d => Assembled p.1 p.2 d) (rs.zip ss) ds :=
  (Traverse.mapM_eq_ok.mp h).imp fun _ _ => assembled

end Minipool.Details

namespace Survey

variable {ς : Survey} {addresses : List Address} {parts : List (Part Request Reply)}

theorem length_minipoolVersions (h : (ς.minipoolVersions addresses).Course parts (.ok ws)) :
    ws.length = addresses.length := by
  obtain ⟨_, -, os, length, rfl, -⟩ := probes_of_course h
  exact (List.length_map _).trans length

theorem kept_minipoolRaw {raw raws : List Raw} (h : (ς.minipoolRaw raw).Course parts (.ok raws)) :
    List.Forall₂ Raw.Kept raw raws := by
  obtain ⟨part, rfl, round⟩ := Program.Course.of_together h
  refine round.forall₂_of_chunks rfl ?_
  intro r _ heard due out g
  cases g with
  | change h g =>
    cases h
    refine Read.forall₂_of_finished ?_ ?_ g
    · intro slot x ρ m
      exact ⟨(Minipool.placed_reads ς.network).slot_eq m, x.kept_reads _ _ ρ m⟩
    · exact List.forall₂_map_right_iff.mpr (List.forall₂_same.mpr fun x _ => x.kept_cleared)

theorem shares_minipoolShares {raw : List Raw} {ss : List Shares}
    (h : (ς.minipoolShares raw).Course parts (.ok ss)) : List.Forall₂ Shares.Of raw ss := by
  obtain ⟨part, rfl, round⟩ := Program.Course.of_together h
  refine round.forall₂_of_chunks List.length_replicate.symm ?_
  intro r _ heard due out g
  rw [Shares.worker] at g
  cases settled : (r.part raw).mapM Shares.distributable with
  | error e =>
    rw [settled] at g
    cases g with
    | change h => cases h
  | ok amounts =>
    rw [settled] at g
    cases g with
    | change h g =>
      cases h
      have amount := Traverse.mapM_eq_ok.mp settled
      let P (p : Raw × Int) (s : Shares) : Prop := Shares.distributable p.1 = .ok p.2 ∧ Shares.Of p.1 s
      have each : List.Forall₂ P ((r.part raw).zip amounts) out := by
        refine Read.forall₂_of_finished ?_ ?_ g
        · rintro slot ⟨x, n⟩ ρ m
          refine ⟨(Minipool.placed_shares ς.network).slot_eq (a := (x, n)) m, ?_⟩
          rintro g c s ⟨h, own⟩
          exact ⟨h, Shares.of_reads h _ _ ρ m g c s own⟩
        · rw [Range.part_replicate, Shares.zipWith_replicate amount.length_eq]
          refine List.forall₂_map_right_iff.mpr (List.forall₂_same.mpr ?_)
          rintro ⟨x, n⟩ m
          have h := List.forall₂_zip amount m
          exact ⟨h, Shares.of_begun h⟩
      rw [← List.map_fst_zip (Nat.le_of_eq amount.length_eq)]
      exact List.forall₂_map_left_iff.mpr (each.imp fun _ _ h => h.2)

theorem of_startRecords (h : startRecords addresses ws = .ok raw) :
    List.Forall₂ (fun (p : Address × Word) r =>
      ∃ ω, Minipool.supported p.1 p.2 = .ok ω ∧ r = { address := p.1, version := ω })
      (addresses.zip ws) raw := by
  refine (Traverse.mapM_eq_ok.mp h).imp ?_
  rintro ⟨a, v⟩ r started
  obtain ⟨ω, supported, made⟩ := Traverse.bind_eq_ok.mp started
  cases made
  exact ⟨ω, supported, rfl⟩

/-- The ways to go through the stages: to the end, or to the first that fails. -/
inductive Stages (ς : Survey) (addresses : List Address) :
    List (Part Request Reply) → Except SnapshotError (List Details) → Prop
  | versions (v : (ς.minipoolVersions addresses).Course [p] (.error e)) :
      Stages ς addresses [p] (.error e)
  | start (v : (ς.minipoolVersions addresses).Course [p] (.ok ws))
      (h : startRecords addresses ws = .error e) : Stages ς addresses [p] (.error e)
  | details (v : (ς.minipoolVersions addresses).Course [p] (.ok ws))
      (h : startRecords addresses ws = .ok raw) (d : (ς.minipoolRaw raw).Course [p'] (.error e)) :
      Stages ς addresses [p, p'] (.error e)
  | shares (v : (ς.minipoolVersions addresses).Course [p] (.ok ws))
      (h : startRecords addresses ws = .ok raw) (d : (ς.minipoolRaw raw).Course [p'] (.ok raws))
      (s : (ς.minipoolShares raws).Course [p''] (.error e)) : Stages ς addresses [p, p', p''] (.error e)
  | all (v : (ς.minipoolVersions addresses).Course [p] (.ok ws))
      (h : startRecords addresses ws = .ok raw) (d : (ς.minipoolRaw raw).Course [p'] (.ok raws))
      (s : (ς.minipoolShares raws).Course [p''] (.ok ss)) :
      Stages ς addresses [p, p', p''] (Details.assembleAll raws ss)

theorem stages_of_course (h : (ς.minipoolsFor addresses).Course parts r) :
    ς.Stages addresses parts r := by
  rcases Program.Course.of_together_bind h with ⟨p, parts', ws, rfl, v, h'⟩ | ⟨p, e, rfl, v, rfl⟩
  · rcases Program.Course.of_lift_bind h' with ⟨raw, start, h''⟩ | ⟨e, start, rfl, rfl⟩
    · rcases Program.Course.of_together_bind h'' with ⟨p', _, raws, rfl, d, k⟩ | ⟨p', e, rfl, d, rfl⟩
      · rcases Program.Course.of_together_bind k with ⟨p'', _, ss, rfl, s, k'⟩ | ⟨p'', e, rfl, s, rfl⟩
        · obtain ⟨rfl, rfl⟩ := Program.Course.of_done k'
          exact .all v start d s
        · exact .shares v start d s
      · exact .details v start d
    · exact .start v start
  · exact .versions v

theorem Stages.of_ok (h : ς.Stages addresses parts (.ok ds)) :
    ∃ p ws raw p' raws p'' ss, parts = [p, p', p''] ∧
      (ς.minipoolVersions addresses).Course [p] (.ok ws) ∧ startRecords addresses ws = .ok raw ∧
      (ς.minipoolRaw raw).Course [p'] (.ok raws) ∧ (ς.minipoolShares raws).Course [p''] (.ok ss) ∧
      Details.assembleAll raws ss = .ok ds := by
  generalize e : Except.ok ds = r at h
  cases h with
  | versions | start | details | shares => cases e
  | all v h d s => exact ⟨_, _, _, _, _, _, _, rfl, v, h, d, s, rfl⟩

theorem starts (v : (ς.minipoolVersions addresses).Course parts (.ok ws))
    (h : startRecords addresses ws = .ok raw) :
    List.Forall₂ (fun a (r : Raw) => r.address = a) addresses raw := by
  have length := Nat.le_of_eq (length_minipoolVersions v).symm
  rw [← List.map_fst_zip length]
  refine List.forall₂_map_left_iff.mpr ((of_startRecords h).imp ?_)
  rintro p _ ⟨ω, -, rfl⟩
  rfl

theorem finishes (s : (ς.minipoolShares raws).Course parts (.ok ss))
    (h : Details.assembleAll raws ss = .ok ds) :
    List.Forall₂ (fun r d => ∃ s, Shares.Of r s ∧ Details.Assembled r s d) raws ds :=
  Traverse.forall₂_of_zip (shares_minipoolShares s) (Details.assembled_all h)

theorem supported_of_start (v : (ς.minipoolVersions addresses).Course parts (.ok ws))
    (h : startRecords addresses ws = .ok raw) : ∀ w ∈ ws, 1 ≤ w.toNat ∧ w.toNat < 4 := by
  intro w m
  rw [← List.map_snd_zip (Nat.le_of_eq (length_minipoolVersions v))] at m
  obtain ⟨p, n, rfl⟩ := List.mem_map.mp m
  obtain ⟨_, ω, supported, -⟩ := Traverse.exists_forall₂.mp ⟨raw, of_startRecords h⟩ p n
  exact Minipool.supported_eq_ok supported

theorem proper_of_finish (s : (ς.minipoolShares raws).Course parts (.ok ss))
    (h : Details.assembleAll raws ss = .ok ds) : ∀ r ∈ raws, r.Proper := by
  intro r m
  obtain ⟨d, s, own, assembled⟩ := Traverse.exists_forall₂.mp ⟨ds, finishes s h⟩ r m
  obtain ⟨balance, refund, -⟩ := Minipool.distributable_eq_ok own.1
  exact assembled.proper balance refund

end Survey

end PoolSnapshot
