import PoolSnapshot.Minipool.CompleteShares
import PoolSnapshot.Proofs.Minipool.Batching
import PoolSnapshot.Proofs.Minipool.Requests

/-!
Shares of beacon balances, and of all that a minipool has. An amount is a number before it is a word:
nothing is asked for a sum that leaves the words or does not fit a sign.
-/
namespace PoolSnapshot

open Abi (Value)
open Minipool (Details CompleteShares)

namespace Minipool

variable {R : Type} {f : Call → Outcome} {ν : Network} {slot : Nat} {a : Address} {amount : Int}
  {node user : R → Word → R} {n u : Word}

/-- The minipool answers these as the node's and the users' share of a word. -/
def Gives (f : Call → Outcome) (a : Address) (w n u : Word) : Prop :=
  (f (.to a "calculateNodeShare(uint256)" [.uint w])).Is (.uint 256) (.uint n) ∧
    (f (.to a "calculateUserShare(uint256)" [.uint w])).Is (.uint 256) (.uint u)

/-- What the minipool gives for exactly the amount, and nothing of an amount that is not positive. -/
def SharesOf (f : Call → Outcome) (a : Address) (amount : Int) (n u : Word) : Prop :=
  if 0 < amount then ∃ w : Word, (w.toNat : Int) = amount ∧ Gives f a w n u else n = 0 ∧ u = 0

theorem toNat_ofInt (positive : 0 < amount) (small : amount < (2 ^ 256 : Nat)) :
    ((BitVec.ofInt 256 amount).toNat : Int) = amount := by
  rw [BitVec.toNat_ofInt, Int.toNat_of_nonneg (Int.emod_nonneg _ (by decide))]
  exact Int.emod_eq_of_lt (Int.le_of_lt positive) small

theorem ofInt_toNat (w : Word) : BitVec.ofInt 256 w.toNat = w := by
  rw [BitVec.ofInt_natCast, BitVec.ofNat_toNat, BitVec.setWidth_eq]

theorem sharesOf_iff (positive : 0 < amount) (small : amount < (2 ^ 256 : Nat)) :
    SharesOf f a amount n u ↔ Gives f a (.ofInt 256 amount) n u := by
  rw [SharesOf, if_pos positive]
  constructor
  · rintro ⟨w, rfl, h⟩
    rwa [ofInt_toNat]
  · exact fun h => ⟨_, toNat_ofInt positive small, h⟩

/-- There are shares exactly if their calls are answered with numbers. -/
theorem exists_sharesOf (small : amount < (2 ^ 256 : Nat)) :
    (∃ n u, SharesOf f a amount n u) ↔
      ∀ c ∈ shareCalls a amount, ∃ v, (f c).Is (.uint 256) (.uint v) := by
  by_cases positive : 0 < amount
  · rw [shareCalls, if_pos positive, List.forall_mem_cons, List.forall_mem_singleton]
    simp only [sharesOf_iff positive small, Gives, exists_and_left, exists_and_right]
  · rw [shareCalls, if_neg positive]
    exact ⟨fun _ => List.forall_mem_nil _, fun _ => ⟨0, 0, (if_neg positive).mpr ⟨rfl, rfl⟩⟩⟩

/-- Calls for shares are made with the amount itself. -/
theorem exists_of_mem_shareCalls (small : amount < (2 ^ 256 : Nat)) (m : c ∈ shareCalls a amount) :
    ∃ w : Word, 0 < w.toNat ∧ (w.toNat : Int) = amount ∧
      c ∈ [Call.to a "calculateNodeShare(uint256)" [.uint w],
        .to a "calculateUserShare(uint256)" [.uint w]] := by
  rw [shareCalls] at m
  split at m
  · next positive =>
    have exact := toNat_ofInt positive small
    exact ⟨_, by omega, exact, m⟩
  · cases m

theorem apply_sharePair {w : Word} {x y : R} :
    Read.apply f x (sharePair ν slot a w node user) = some y ↔
      ∃ n u, Gives f a w n u ∧ y = user (node x n) u := by
  have first (h : R → R) :
      (Read.of slot (ν.minipoolAt a) "calculateNodeShare" [.uint w] node).change? f = some h ↔
        ∃ n, (f (.to a "calculateNodeShare(uint256)" [.uint w])).Is (.uint 256) (.uint n) ∧ h = (node · n) :=
    Read.change?_word rfl rfl rfl rfl
  have second (h : R → R) :
      (Read.of slot (ν.minipoolAt a) "calculateUserShare" [.uint w] user).change? f = some h ↔
        ∃ u, (f (.to a "calculateUserShare(uint256)" [.uint w])).Is (.uint 256) (.uint u) ∧ h = (user · u) :=
    Read.change?_word rfl rfl rfl rfl
  simp only [sharePair, Read.apply, List.foldlM_cons, List.foldlM_nil, Option.bind_eq_bind,
    Option.bind_eq_some_iff, Option.map_eq_some_iff, first, second]
  constructor
  · rintro ⟨_, ⟨_, ⟨n, own, rfl⟩, rfl⟩, _, ⟨_, ⟨u, own', rfl⟩, rfl⟩, ⟨⟩⟩
    exact ⟨n, u, ⟨own, own'⟩, rfl⟩
  · rintro ⟨n, u, ⟨own, own'⟩, rfl⟩
    exact ⟨_, ⟨_, ⟨n, own, rfl⟩, rfl⟩, _, ⟨_, ⟨u, own', rfl⟩, rfl⟩, rfl⟩

/-- The reads for an amount bring its shares to the record, where a record without them has none. -/
theorem apply_shares {ρs : List (Read R)} {x y : R} (small : amount < (2 ^ 256 : Nat))
    (reads : ρs = if 0 < amount then sharePair ν slot a (.ofInt 256 amount) node user else [])
    (none : user (node x 0) 0 = x) :
    Read.apply f x ρs = some y ↔ ∃ n u, SharesOf f a amount n u ∧ y = user (node x n) u := by
  rw [reads]
  by_cases positive : 0 < amount
  · simp only [if_pos positive, apply_sharePair, sharesOf_iff positive small]
  · simp only [SharesOf, if_neg positive]
    constructor
    · rintro ⟨⟩
      exact ⟨0, 0, ⟨rfl, rfl⟩, none.symm⟩
    · rintro ⟨_, _, ⟨rfl, rfl⟩, rfl⟩
      exact congrArg some none.symm

namespace CompleteShares

variable {d : Details} {beacon : Word} {s : CompleteShares} {t : Int}

/-- All that the minipool has, without what is the node's already. -/
def whole (d : Details) (beacon : Word) : Int :=
  (beacon.toNat : Int) + d.balance.toNat - d.nodeRefundBalance.toNat

/-- The sum and the refund fit a sign. -/
def InRange (d : Details) (beacon : Word) : Prop :=
  beacon.toNat + d.balance.toNat < 2 ^ 255 ∧ d.nodeRefundBalance.toNat < 2 ^ 255

/-- The calls for the shares of both amounts. -/
def calls (d : Details) (beacon : Word) : List Call :=
  shareCalls d.address beacon.toNat ++ shareCalls d.address (whole d beacon)

/-- The record is of the minipool, with the shares of both amounts. -/
structure Of (f : Call → Outcome) (d : Details) (beacon : Word) (s : CompleteShares) : Prop where
  address : s.address = d.address
  ofBeacon : SharesOf f d.address beacon.toNat s.nodeShareOfBeacon s.userShareOfBeacon
  ofWhole : SharesOf f d.address (whole d beacon) s.nodeShareOfTotal s.userShareOfTotal

theorem InRange.whole_lt (h : InRange d beacon) : whole d beacon < (2 ^ 256 : Nat) := by
  obtain ⟨sum, -⟩ := h
  rw [whole]
  omega

theorem beacon_lt (beacon : Word) : (beacon.toNat : Int) < (2 ^ 256 : Nat) := by
  have := beacon.isLt
  omega

theorem total_eq_ok : total d beacon = .ok t ↔ InRange d beacon ∧ t = whole d beacon := by
  rw [total]
  split
  · next large =>
    -- The sum is refused before it could wrap, and it fits no sign either.
    refine ⟨nofun, fun h => ?_⟩
    have sum := h.1.1
    rw [Nat.pow_eq] at large
    omega
  · next fits =>
    have sum : (BitVec.ofNat 256 (beacon.toNat + d.balance.toNat)).toNat = beacon.toNat + d.balance.toNat :=
      Nat.mod_eq_of_lt (Nat.lt_of_not_le fits)
    rw [Traverse.mapError_eq_ok, difference_eq_ok, sum, InRange, whole, Int.natCast_add, and_assoc]

theorem beaconReads_eq : beaconReads ν slot d beacon =
    if 0 < (beacon.toNat : Int) then
      sharePair ν slot d.address (.ofInt 256 beacon.toNat) (fun s v => { s with nodeShareOfBeacon := v })
        (fun s v => { s with userShareOfBeacon := v })
    else [] := by
  rw [beaconReads, ofInt_toNat]
  by_cases zero : beacon = 0
  · rw [if_pos zero, zero]
    rfl
  · have positive : beacon.toNat ≠ 0 := fun h => zero (BitVec.eq_of_toNat_eq h)
    rw [if_neg zero, if_pos (by omega)]

theorem totalReads_eq : totalReads ν slot d t =
    if 0 < t then
      sharePair ν slot d.address (.ofInt 256 t) (fun s v => { s with nodeShareOfTotal := v })
        (fun s v => { s with userShareOfTotal := v })
    else [] := by
  rw [totalReads]
  by_cases none : t ≤ 0
  · rw [if_pos none, if_neg (Int.not_lt_of_ge none)]
  · rw [if_neg none, if_pos (Int.lt_of_not_ge none)]

theorem apply_reads (h : InRange d beacon) :
    Read.apply f { address := d.address }
        (beaconReads ν slot d beacon ++ totalReads ν slot d (whole d beacon)) = some s ↔ Of f d beacon s := by
  have beacons (y : CompleteShares) :
      Read.apply f { address := d.address } (beaconReads ν slot d beacon) = some y ↔ ∃ n u,
        SharesOf f d.address beacon.toNat n u ∧
          y = { address := d.address, nodeShareOfBeacon := n, userShareOfBeacon := u } :=
    apply_shares (beacon_lt beacon) beaconReads_eq rfl
  rw [Read.apply_append, Option.bind_eq_some_iff]
  constructor
  · rintro ⟨y, first, second⟩
    obtain ⟨n, u, ofBeacon, rfl⟩ := (beacons y).mp first
    obtain ⟨n', u', ofWhole, rfl⟩ := (apply_shares h.whole_lt totalReads_eq rfl).mp second
    exact ⟨rfl, ofBeacon, ofWhole⟩
  · rintro ⟨here, ofBeacon, ofWhole⟩
    refine ⟨_, (beacons _).mpr ⟨_, _, ofBeacon, rfl⟩, ?_⟩
    refine (apply_shares h.whole_lt totalReads_eq rfl).mpr ⟨_, _, ofWhole, ?_⟩
    rw [← here]

/-- What one minipool's complete shares come to by themselves. -/
def completed (ν : Network) (f : Call → Outcome) (p : Details × Word) : Option CompleteShares :=
  (total p.1 p.2).toOption.bind fun t =>
    Read.apply f { address := p.1.address } (beaconReads ν 0 p.1 p.2 ++ totalReads ν 0 p.1 t)

theorem completed_eq_some {p : Details × Word} :
    completed ν f p = some s ↔ InRange p.1 p.2 ∧ Of f p.1 p.2 s := by
  simp only [completed, Option.bind_eq_some_iff, Traverse.toOption_eq_some, total_eq_ok]
  constructor
  · rintro ⟨_, ⟨h, rfl⟩, applied⟩
    exact ⟨h, (apply_reads h).mp applied⟩
  · rintro ⟨h, own⟩
    exact ⟨_, ⟨h, rfl⟩, (apply_reads h).mpr own⟩

theorem totals_eq_ok {ps : List (Details × Word)} {ts : List Int}
    (h : (ps.mapM fun p => total p.1 p.2) = .ok ts) :
    (∀ p ∈ ps, InRange p.1 p.2) ∧ ts = ps.map fun p => whole p.1 p.2 := by
  have each := Traverse.mapM_eq_ok.mp h
  simp only [total_eq_ok] at each
  obtain ⟨range, each⟩ := (List.forall₂_and_left _ _).mp each
  refine ⟨range, ?_⟩
  rw [← List.forall₂_eq_eq_eq, List.forall₂_map_right_iff]
  exact each.flip

theorem exists_of_iff (h : InRange d beacon) :
    (∃ s, Of f d beacon s) ↔ ∀ c ∈ calls d beacon, ∃ v, (f c).Is (.uint 256) (.uint v) := by
  rw [calls, List.forall_mem_append, ← exists_sharesOf (beacon_lt beacon), ← exists_sharesOf h.whole_lt]
  constructor
  · rintro ⟨s, -, first, second⟩
    exact ⟨⟨_, _, first⟩, _, _, second⟩
  · rintro ⟨⟨n, u, first⟩, n', u', second⟩
    exact ⟨⟨d.address, n, u, n', u'⟩, rfl, first, second⟩

theorem placed_reads : Placed fun slot (p : (Details × Word) × Int) =>
    beaconReads ν slot p.1.1 p.1.2 ++ totalReads ν slot p.1.1 p.2 := by
  rintro slot ⟨⟨d, beacon⟩, t⟩
  simp only [beaconReads, totalReads, List.map_append]
  split <;> split <;> rfl

theorem calls_reads (ν : Network) (slot : Nat) (d : Details) (beacon : Word) (t : Int) :
    List.Forall₂ Read.Calls (beaconReads ν slot d beacon ++ totalReads ν slot d t)
      (shareCalls d.address beacon.toNat ++ shareCalls d.address t) := by
  have guarded {c : Prop} [Decidable c] {ρs : List (Read CompleteShares)} {cs : List Call}
      (h : List.Forall₂ Read.Calls ρs cs) :
      List.Forall₂ Read.Calls (if c then ρs else []) (if c then cs else []) := by
    split
    · exact h
    · exact .nil
  rw [beaconReads_eq, totalReads_eq]
  exact List.rel_append (guarded (calls_sharePair ..)) (guarded (calls_sharePair ..))

end CompleteShares

end Minipool

namespace Survey

open Minipool.CompleteShares (completed completed_eq_some totals_eq_ok InRange Of calls whole)

variable {f : Call → Outcome} {reason : Request → String} (ς : Survey) {ds : List Details} {beacons : List Word}

theorem result_completeShares (ps : List (Details × Word)) :
    (CompleteShares.worker ς ps).result (pointwise f reason) (ps.map fun p => { address := p.1.address }) =
      ps.mapM (completed ς.network f) := by
  refine Eq.trans ?_ (Traverse.mapM_bind_zip (fun p => (CompleteShares.total p.1 p.2).toOption)
    (fun p : (Details × Word) × Int => Read.apply f { address := p.1.1.address }
      (CompleteShares.beaconReads ς.network 0 p.1.1 p.1.2 ++
        CompleteShares.totalReads ς.network 0 p.1.1 p.2)) ps)
  rw [← Traverse.toOption_mapM, CompleteShares.worker]
  cases settled : ps.mapM fun p => CompleteShares.total p.1 p.2 with
  | error e => rfl
  | ok totals =>
    have length : ps.length = totals.length := (Traverse.mapM_eq_ok.mp settled).length_eq
    have records : (ps.map fun p => ({ address := p.1.address } : CompleteShares)) =
        (ps.zip totals).map fun p => { address := p.1.1.address } := by
      conv_lhs => rw [← List.map_fst_zip (Nat.le_of_eq length), List.map_map]
      rfl
    rw [records]
    refine (Read.result_readEach Minipool.CompleteShares.placed_reads (List.length_map _).symm _ _).trans ?_
    exact Traverse.mapM_zip_map _ _ (ps.zip totals)

theorem toOption_completeShares (same : ds.length = beacons.length) :
    ((ς.completeShares ds beacons).eval (pointwise f reason)).toOption =
      (ds.zip beacons).mapM (completed ς.network f) := by
  have records : (ds.map fun d => ({ address := d.address } : CompleteShares)) =
      (ds.zip beacons).map fun p => { address := p.1.address } := by
    conv_lhs => rw [← List.map_fst_zip (Nat.le_of_eq same), List.map_map]
    rfl
  rw [completeShares, if_pos same, records]
  apply ς.toOption_inChunks (List.length_map _).symm
  intro r _
  rw [Range.part_map]
  exact result_completeShares ς _

theorem completeShares_returns_iff (same : ds.length = beacons.length) {ss : List CompleteShares} :
    (ς.completeShares ds beacons).Returns (pointwise f reason) ss ↔
      List.Forall₂ (fun p s => InRange p.1 p.2 ∧ Of f p.1 p.2 s) (ds.zip beacons) ss := by
  rw [Program.returns_iff, ← Traverse.toOption_eq_some, toOption_completeShares ς same, Traverse.mapM_eq_some]
  simp only [completed_eq_some]

variable {ς}

theorem mem_questions_completeShares {ps : List (Details × Word)}
    (m : q ∈ (CompleteShares.worker ς ps).questions) :
    (∀ p ∈ ps, InRange p.1 p.2) ∧ q = ⟨ps.flatMap fun p => calls p.1 p.2, false, ς.block⟩ := by
  rw [CompleteShares.worker] at m
  cases settled : ps.mapM fun p => CompleteShares.total p.1 p.2 with
  | error e =>
    rw [settled] at m
    cases m
  | ok totals =>
    rw [settled] at m
    obtain ⟨range, rfl⟩ := totals_eq_ok settled
    have asked := Read.mem_questions (Read.calls_readEach fun slot (p : (Details × Word) × Int) =>
      CompleteShares.calls_reads ς.network slot p.1.1 p.1.2 p.2) m
    rw [← List.map_prod_left_eq_zip, List.flatMap_map] at asked
    exact ⟨range, asked⟩

theorem inRange_of_goes {ps : List (Details × Word)}
    (g : (CompleteShares.worker ς ps).Goes rs heard due (.finished out)) : ∀ p ∈ ps, InRange p.1 p.2 := by
  rw [CompleteShares.worker] at g
  cases settled : ps.mapM fun p => CompleteShares.total p.1 p.2 with
  | error e =>
    rw [settled] at g
    cases g with
    | change h => cases h
  | ok totals => exact (totals_eq_ok settled).1

/-- Nothing is asked for a chunk with an amount out of range. -/
theorem asked_completeShares {r : Except SnapshotError (List CompleteShares)}
    (h : (ς.completeShares ds beacons).Run asked r) (m : x ∈ asked) :
    x.1.allowFailure = false ∧ x.1.block = ς.block ∧
      ∀ c ∈ x.1.calls, ∃ p ∈ ds.zip beacons, InRange p.1 p.2 ∧ c ∈ calls p.1 p.2 := by
  obtain ⟨parts, course, rfl⟩ := h.course
  rw [completeShares] at course
  split at course
  · obtain ⟨part, rfl, round⟩ := Program.Course.of_together course
    obtain ⟨τ, n, q⟩ := round.mem_questions (by simpa using m)
    rw [Task.chunked_eq] at n
    obtain ⟨rg, -, rfl⟩ := List.mem_map.mp n
    obtain ⟨range, same⟩ := mem_questions_completeShares q
    rw [same]
    refine ⟨rfl, rfl, fun c n => ?_⟩
    obtain ⟨p, inside, own⟩ := List.mem_flatMap.mp n
    exact ⟨p, rg.part_subset _ inside, range p inside, own⟩
  · obtain ⟨rfl, -⟩ := Program.Course.of_done course
    cases m

/-- Whatever is answered, one amount out of range is enough to fail. -/
theorem inRange_of_run (same : ds.length = beacons.length)
    (h : (ς.completeShares ds beacons).Run asked (.ok ss)) : ∀ p ∈ ds.zip beacons, InRange p.1 p.2 := by
  obtain ⟨parts, course, rfl⟩ := h.course
  rw [completeShares, if_pos same] at course
  obtain ⟨part, rfl, round⟩ := Program.Course.of_together course
  obtain ⟨ways, went, -, -⟩ := round.exists_ways
  intro p m
  obtain ⟨rg, inside, here⟩ := Chunk.exists_part ς.batching.completeShare m
  rw [List.length_zip, ← same, Nat.min_self, ← List.length_map] at inside
  obtain ⟨way, goes⟩ := Traverse.exists_forall₂.mp ⟨ways, went⟩ rg inside
  exact inRange_of_goes goes p here

/-- Complete shares are the minipools' own answers for their exact amounts, whatever the chunks. An amount
out of range fails and is never asked for. -/
theorem completeShares_exact (ς : Survey) (ds : List Details) (beacons : List Word) :
    let program := ς.completeShares ds beacons
    let given (i : Nat) (d : Details) (beacon : Word) : Prop := ds[i]? = some d ∧ beacons[i]? = some beacon
    (ds.length ≠ beacons.length →
      (∃ r, program.Run [] r) ∧ ∀ asked r, program.Run asked r →
        asked = [] ∧ r = .error (.lengthMismatch "beacon balances" ds.length beacons.length)) ∧
    (ds.length = beacons.length →
      (∀ (f : Call → Outcome) (reason : Request → String),
        let answer := pointwise f reason
        ((∃ ss, program.Returns answer ss) ↔ ∀ i d beacon, given i d beacon →
          InRange d beacon ∧ ∀ c ∈ calls d beacon, ∃ v, (f c).Is (.uint 256) (.uint v)) ∧
        (∀ ss, program.Returns answer ss → ss.length = ds.length ∧
          ∀ i d beacon s, given i d beacon → ss[i]? = some s → Of f d beacon s) ∧
        ((¬∃ ss, program.Returns answer ss) → ∀ r, program.Comes answer r → ∃ e, r = .error e)) ∧
      ∀ i d beacon, given i d beacon → ¬InRange d beacon →
        ∀ asked r, program.Run asked r → ∃ e, r = .error e) ∧
    ∀ asked r, program.Run asked r → ∀ x ∈ asked, x.1.allowFailure = false ∧ x.1.block = ς.block ∧
      ∀ c ∈ x.1.calls, ∃ i d beacon, ∃ w : Word, given i d beacon ∧ InRange d beacon ∧
        0 < w.toNat ∧ ((w.toNat : Int) = beacon.toNat ∨ (w.toNat : Int) = whole d beacon) ∧
        c ∈ [Call.to d.address "calculateNodeShare(uint256)" [.uint w],
          .to d.address "calculateUserShare(uint256)" [.uint w]] := by
  intro program given
  refine ⟨?mismatch, fun same => ⟨fun f reason => ⟨?exactly, ?aligned, ?fails⟩, ?range⟩, ?asked⟩
  case mismatch =>
    intro differ
    have stops : program = .done (.error (.lengthMismatch "beacon balances" ds.length beacons.length)) :=
      if_neg differ
    rw [stops]
    refine ⟨⟨_, .done _⟩, fun asked r run => ?_⟩
    cases run
    exact ⟨rfl, rfl⟩
  case exactly =>
    simp only [program, completeShares_returns_iff ς same, Traverse.exists_forall₂, exists_and_left]
    rw [Traverse.forall_mem_zip]
    simp only [given, and_imp]
    refine forall₃_congr fun i d beacon => imp_congr_right fun _ => imp_congr_right fun _ => ?_
    exact and_congr_right CompleteShares.exists_of_iff
  case aligned =>
    intro ss h
    obtain ⟨length, each⟩ := Traverse.forall₂_iff_getElem?.mp ((completeShares_returns_iff ς same).mp h)
    rw [List.length_zip, ← same, Nat.min_self] at length
    refine ⟨length, fun i d beacon s here own => ?_⟩
    exact (each i (d, beacon) s (List.getElem?_zip_eq_some.mpr here) own).2
  case fails => exact fun no r h => h.fails no
  case range =>
    intro i d beacon here out asked r run
    cases r with
    | error e => exact ⟨e, rfl⟩
    | ok ss => exact absurd (Traverse.forall_mem_zip.mp (inRange_of_run same run) i d beacon here.1 here.2) out
  case asked =>
    intro asked r run x m
    obtain ⟨strict, block, each⟩ := asked_completeShares run m
    refine ⟨strict, block, fun c n => ?_⟩
    obtain ⟨⟨d, beacon⟩, here, range, own⟩ := each c n
    obtain ⟨i, here⟩ := List.mem_iff_getElem?.mp here
    have here := List.getElem?_zip_eq_some.mp here
    rcases List.mem_append.mp own with own | own
    · obtain ⟨w, positive, exact, own⟩ :=
        Minipool.exists_of_mem_shareCalls (CompleteShares.beacon_lt beacon) own
      exact ⟨i, d, beacon, w, here, range, positive, .inl exact, own⟩
    · obtain ⟨w, positive, exact, own⟩ := Minipool.exists_of_mem_shareCalls range.whole_lt own
      exact ⟨i, d, beacon, w, here, range, positive, .inr exact, own⟩

/-- A refund of the whole balance makes both amounts one, or none. -/
theorem completeShares_exact_refund :
    let ς : Survey := ⟨.ofAddresses ⟨1, 2, 3, 4, 5, 6, 7, 8, 9⟩, { completeShare := 0 }, 0⟩
    let five : Outcome := ⟨true, Abi.encode [.uint 5]⟩
    ∃ d, Details.assemble { address := 10, version := .v1, balance := 2, nodeRefundBalance := 2 } {} = .ok d ∧
      (ς.completeShares [d, d] [3, 0]).Returns (pointwise (fun _ => five) fun _ => "")
        [⟨10, 5, 5, 5, 5⟩, ⟨10, 0, 0, 0, 0⟩] ∧
      ∀ asked r, (ς.completeShares [d] [BitVec.ofNat 256 (2 ^ 255 - 2)]).Run asked r → ∃ e, r = .error e := by
  intro ς five
  obtain ⟨d, made, address, balance, refund⟩ : ∃ d,
      Details.assemble { address := 10, version := .v1, balance := 2, nodeRefundBalance := 2 } {} = .ok d ∧
        d.address = 10 ∧ d.balance = 2 ∧ d.nodeRefundBalance = 2 := ⟨_, rfl, rfl, rfl, rfl⟩
  have answered : five.Is (.uint 256) (.uint 5) := ⟨rfl, Value.decode_encode_elementary trivial rfl trivial⟩
  have shared {amount : Int} {n u : Word} (positive : 0 < amount)
      (h : Minipool.SharesOf (fun _ => five) d.address amount n u) : n = 5 ∧ u = 5 := by
    rw [Minipool.SharesOf, if_pos positive] at h
    obtain ⟨_, -, ofNode, ofUser⟩ := h
    cases ofNode.2.symm.trans answered.2
    cases ofUser.2.symm.trans answered.2
    exact ⟨rfl, rfl⟩
  have unshared {n u : Word} (h : Minipool.SharesOf (fun _ => five) d.address 0 n u) : n = 0 ∧ u = 0 := h
  have whole_eq (beacon : Word) : whole d beacon = beacon.toNat := by
    rw [whole, balance, refund]
    exact Int.add_sub_cancel ..
  refine ⟨d, made, ?_, ?_⟩
  · obtain ⟨-, shares, -⟩ := completeShares_exact ς [d, d] [3, 0]
    obtain ⟨exactly, aligned, -⟩ := (shares rfl).1 (fun _ => five) fun _ => ""
    obtain ⟨ss, returns⟩ : ∃ ss, (ς.completeShares [d, d] [3, 0]).Returns _ ss := by
      refine exactly.mpr fun i e beacon here => ⟨?_, fun _ _ => ⟨5, answered⟩⟩
      obtain rfl : e = d := by simpa using List.mem_of_getElem? here.1
      have own : ∀ b ∈ [3, (0 : Word)], InRange e b := by
        rw [List.forall_mem_cons, List.forall_mem_singleton, InRange, InRange, balance, refund]
        decide
      exact own beacon (List.mem_of_getElem? here.2)
    obtain ⟨length, each⟩ := aligned ss returns
    obtain ⟨s, s', rfl⟩ := List.length_eq_two.mp length
    have first := each 0 d 3 s ⟨rfl, rfl⟩ rfl
    have second := each 1 d 0 s' ⟨rfl, rfl⟩ rfl
    have s_eq : s = ⟨10, 5, 5, 5, 5⟩ := by
      obtain ⟨a, n, u, n', u'⟩ := s
      obtain ⟨rfl, rfl⟩ := shared (by decide) first.ofBeacon
      obtain ⟨rfl, rfl⟩ := shared (whole_eq 3 ▸ by decide) first.ofWhole
      exact congrArg (CompleteShares.mk · 5 5 5 5) (first.address.trans address)
    have s'_eq : s' = ⟨10, 0, 0, 0, 0⟩ := by
      obtain ⟨a, n, u, n', u'⟩ := s'
      obtain ⟨rfl, rfl⟩ := unshared second.ofBeacon
      obtain ⟨rfl, rfl⟩ := unshared (whole_eq 0 ▸ second.ofWhole)
      exact congrArg (CompleteShares.mk · 0 0 0 0) (second.address.trans address)
    rwa [s_eq, s'_eq] at returns
  · obtain ⟨-, shares, -⟩ := completeShares_exact ς [d] [BitVec.ofNat 256 (2 ^ 255 - 2)]
    refine (shares rfl).2 0 d _ ⟨rfl, rfl⟩ fun range => ?_
    have sum := range.1
    rw [balance] at sum
    exact absurd sum (by decide)

end Survey

end PoolSnapshot
