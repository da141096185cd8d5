import PoolSnapshot.Proofs.Batch.Queue
import PoolSnapshot.Proofs.Minipool.Complete

/-!
Amounts in the bits of a word. The two numbers of a difference must have a clear sign bit, and then the
subtraction of the bits is exact: what is asked for is the amount itself, and none that is not positive.
-/
namespace PoolSnapshot

open Minipool (Raw Shares)

namespace Word

/-- The same bits as a signed number, if the sign bit is clear. -/
def signed? (w : Word) : Option Word := if w.msb then none else some w

/-- The bits are subtracted, and the three signs tell whether that went wrong. -/
def checkedSub (w v : Word) : Option Word :=
  match w.msb, v.msb, (w - v).msb with
  | false, true, true | true, false, false => none
  | _, _, _ => some (w - v)

def signedDifference (w v : Word) : Option Word := do checkedSub (← signed? w) (← signed? v)

variable {w v d : Word}

theorem msb_eq_false_iff : w.msb = false ↔ w.toNat < 2 ^ 255 := by
  rw [BitVec.msb_eq_false_iff_two_mul_lt]
  omega

theorem signed?_eq_some : signed? w = some d ↔ d = w ∧ w.toNat < 2 ^ 255 := by
  rw [signed?, ← msb_eq_false_iff]
  cases w.msb <;> simp [eq_comm]

theorem checkedSub_eq (w v : Word) : checkedSub w v = if w.ssubOverflow v then none else some (w - v) := by
  rw [checkedSub, BitVec.ssubOverflow_eq]
  cases w.msb <;> cases v.msb <;> cases (w - v).msb <;> rfl

/-- A checked difference is the exact one, and where there is none the exact one has no such word. -/
theorem checkedSub_eq_some : checkedSub w v = some d ↔ d.toInt = w.toInt - v.toInt := by
  rw [checkedSub_eq]
  by_cases wide : w.ssubOverflow v
  · have low := d.le_toInt
    have high := d.toInt_lt
    rw [if_pos wide]
    simp only [BitVec.ssubOverflow, Bool.or_eq_true, decide_eq_true_eq] at wide
    exact ⟨nofun, by omega⟩
  · rw [if_neg wide, ← BitVec.toInt_sub_of_not_ssubOverflow wide, Option.some_inj, BitVec.toInt_inj]
    exact eq_comm

/-- Two signed numbers are both below `2 ^ 255`, and their difference is then in range on either side. -/
theorem checkedSub_of_signed (hw : w.toNat < 2 ^ 255) (hv : v.toNat < 2 ^ 255) :
    ∃ d, checkedSub w v = some d ∧ d.toInt = (w.toNat : Int) - v.toNat := by
  have exact : (BitVec.ofInt 256 ((w.toNat : Int) - v.toNat)).toInt = (w.toNat : Int) - v.toNat := by
    rw [BitVec.toInt_ofInt]
    refine Int.bmod_eq_of_le ?_ ?_ <;> omega
  refine ⟨_, checkedSub_eq_some.mpr ?_, exact⟩
  rw [exact, BitVec.toInt_eq_toNat_of_msb (msb_eq_false_iff.mpr hw),
    BitVec.toInt_eq_toNat_of_msb (msb_eq_false_iff.mpr hv)]

theorem signedDifference_eq_some : signedDifference w v = some d ↔
    w.toNat < 2 ^ 255 ∧ v.toNat < 2 ^ 255 ∧ d.toInt = (w.toNat : Int) - v.toNat := by
  simp only [signedDifference, Option.bind_eq_bind, Option.bind_eq_some_iff, signed?_eq_some]
  constructor
  · rintro ⟨_, ⟨rfl, hw⟩, _, ⟨rfl, hv⟩, h⟩
    obtain ⟨d', there, exact⟩ := checkedSub_of_signed hw hv
    cases h.symm.trans there
    exact ⟨hw, hv, exact⟩
  · rintro ⟨hw, hv, exact⟩
    obtain ⟨d', there, exact'⟩ := checkedSub_of_signed hw hv
    obtain rfl := BitVec.toInt_inj.mp (exact.trans exact'.symm)
    exact ⟨w, ⟨rfl, hw⟩, v, ⟨rfl, hv⟩, there⟩

theorem signedDifference_eq_none :
    signedDifference w v = none ↔ 2 ^ 255 ≤ w.toNat ∨ 2 ^ 255 ≤ v.toNat := by
  rw [Option.eq_none_iff_forall_ne_some]
  simp only [ne_eq, signedDifference_eq_some]
  constructor
  · intro none
    by_contra fits
    obtain ⟨hw, hv⟩ := not_or.mp fits
    obtain ⟨d, -, exact⟩ := checkedSub_of_signed (Nat.lt_of_not_le hw) (Nat.lt_of_not_le hv)
    exact none d ⟨Nat.lt_of_not_le hw, Nat.lt_of_not_le hv, exact⟩
  · intro wide d ⟨hw, hv, _⟩
    omega

theorem below_eq_error {bound : Nat} {e : ConversionError} :
    w.below bound = .error e ↔ e = .overflow ∧ bound ≤ w.toNat := by
  rw [below]
  split
  · next lt =>
    simp only [reduceCtorEq, false_iff]
    exact fun h => Nat.not_lt.mpr h.2 lt
  · next ge => exact ⟨fun h => ⟨(Except.error.inj h).symm, Nat.le_of_not_lt ge⟩, fun h => congrArg _ h.1.symm⟩

/-- The bits say what the numbers say. -/
theorem difference_eq (w v : Word) :
    w.difference v = ((signedDifference w v).map fun d => .ok d.toInt).getD (.error .overflow) := by
  cases h : signedDifference w v with
  | some d => exact Minipool.difference_eq_ok.mpr (signedDifference_eq_some.mp h)
  | none =>
    have wide := signedDifference_eq_none.mp h
    rw [difference]
    by_cases hw : w.toNat < 2 ^ 255
    · have hv := below_eq_error.mpr ⟨rfl, wide.resolve_left (Nat.not_le.mpr hw)⟩
      have hw := Minipool.below_eq_ok.mpr ⟨rfl, hw⟩
      simp only [Nat.pow_eq, hw, hv]
      rfl
    · have hw := below_eq_error.mpr ⟨rfl, Nat.le_of_not_lt hw⟩
      simp only [Nat.pow_eq, hw]
      rfl

/-- A positive amount has the same bits with a sign and without. -/
theorem toNat_of_pos (positive : 0 < d.toInt) : (d.toNat : Int) = d.toInt := by
  have lt := d.isLt
  rw [BitVec.toInt_eq_toNat_cond] at positive ⊢
  split at positive <;> split <;> omega

end Word

namespace Minipool.Shares

variable {ν : Network} {slot : Nat} {r : Raw} {s : Shares} {amount : Int} {d : Word}

def signedAmount (r : Raw) : Except SnapshotError Word :=
  match r.balance.signedDifference r.nodeRefundBalance with
  | some d => .ok d
  | none => .error (.conversion (.account r.address) "distributable balance" .overflow)

def withNode (s : Shares) (v : Word) : Shares := { s with nodeShareOfBalance := v }

def withUser (s : Shares) (v : Word) : Shares := { s with userShareOfBalance := v }

/-- What one record begins with, and the reads that are queued for it. -/
def enqueue (ν : Network) (slot : Nat) (r : Raw) (s : Shares) :
    ExceptT SnapshotError (StateM (Queue Shares)) Shares := do
  let d ← ofExcept (signedAmount r)
  if d.toInt ≤ 0 then return ⟨d.toInt, 0, 0⟩
  else
    (sharePair ν slot r.address d withNode withUser).forM fun ρ => ExceptT.adapt (.batch .shares) (Queue.add ρ)
    return { s with distributableBalance := d.toInt }

/-- The records of a chunk in their order, from slot `k` on. -/
def enqueueAll (ν : Network) (k : Nat) (rs : List Raw) (ss : List Shares) :
    ExceptT SnapshotError (StateM (Queue Shares)) (List Shares) :=
  ((rs.zip ss).zipIdx k).mapM fun ((r, s), slot) => enqueue ν slot r s

theorem distributable_eq (r : Raw) : distributable r = (signedAmount r).map (·.toInt) := by
  rw [distributable, Word.difference_eq, signedAmount]
  cases r.balance.signedDifference r.nodeRefundBalance <;> rfl

theorem distributable_eq_ok_iff :
    distributable r = .ok amount ↔ ∃ d, signedAmount r = .ok d ∧ d.toInt = amount := by
  rw [distributable_eq]
  cases signedAmount r <;> simp [Except.map]

theorem distributable_eq_error_iff : distributable r = .error e ↔ signedAmount r = .error e := by
  rw [distributable_eq]
  cases signedAmount r <;> simp [Except.map]

/-- A record with its amount, before it has shares. -/
def settled (s : Shares) (amount : Int) : Shares :=
  if amount ≤ 0 then withoutShares amount else { s with distributableBalance := amount }

/-- Neither call of a pair is ever refused. -/
theorem entries_sharePair {R : Type} (ν : Network) (slot : Nat) (a : Address) (w : Word)
    (node user : R → Word → R) :
    ∃ n u : Entry R, List.Forall₂ (fun ρ e => ρ.entry = .ok e) (sharePair ν slot a w node user) [n, u] ∧
      n.call = .to a "calculateNodeShare(uint256)" [.uint w] ∧
      u.call = .to a "calculateUserShare(uint256)" [.uint w] ∧
      (n.binding.slot, n.binding.method) = (slot, "calculateNodeShare") ∧
      (u.binding.slot, u.binding.method) = (slot, "calculateUserShare") := by
  have calls := calls_sharePair slot ν a w node user
  simp only [sharePair, List.forall₂_cons, List.forall₂_nil_left_iff, and_true] at calls
  obtain ⟨⟨n, node, asked⟩, u, user, asked'⟩ := calls
  refine ⟨n, u, .cons node (.cons user .nil), asked, asked', ?_, ?_⟩
  · exact Prod.ext (Read.slot_entry node) (Read.name_entry node)
  · exact Prod.ext (Read.slot_entry user) (Read.name_entry user)

/-- The amount in its bits is the amount that the reads are made for. -/
theorem reads_toInt (ν : Network) (slot : Nat) (r : Raw) (d : Word) : reads ν slot r d.toInt =
    if d.toInt ≤ 0 then [] else sharePair ν slot r.address d withNode withUser := by
  rw [reads, BitVec.ofInt_toInt]
  rfl

theorem enqueue_error (bits : signedAmount r = .error e) (ν : Network) (slot : Nat) (s : Shares)
    (κ : Queue Shares) : (enqueue ν slot r s).run.run κ = (.error e, κ) :=
  Stateful.bind_error (Stateful.ofExcept_error bits κ)

theorem enqueue_low (bits : signedAmount r = .ok d) (low : d.toInt ≤ 0) (ν : Network) (slot : Nat) (s : Shares)
    (κ : Queue Shares) : (enqueue ν slot r s).run.run κ = (.ok ⟨d.toInt, 0, 0⟩, κ) := by
  rw [enqueue, Stateful.bind_ok (Stateful.ofExcept_ok bits κ), if_pos low]
  rfl

theorem enqueue_high {b : Batch Shares} (bits : signedAmount r = .ok d) (high : ¬d.toInt ≤ 0)
    (made : List.Forall₂ (fun ρ e => ρ.entry = .ok e) (sharePair ν slot r.address d withNode withUser) b)
    (s : Shares) (κ : Queue Shares) :
    (enqueue ν slot r s).run.run κ = (.ok { s with distributableBalance := d.toInt }, κ.append b) := by
  rw [enqueue, Stateful.bind_ok (Stateful.ofExcept_ok bits κ), if_neg high]
  exact Stateful.bind_ok (Queue.forM_add made _ κ)

theorem enqueue_ok (h : distributable r = .ok amount) (ν : Network) (slot : Nat) :
    ∃ b, List.Forall₂ (fun ρ e => ρ.entry = .ok e) (reads ν slot r amount) b ∧
      ∀ s κ, (enqueue ν slot r s).run.run κ = (.ok (settled s amount), κ.append b) := by
  obtain ⟨d, bits, rfl⟩ := distributable_eq_ok_iff.mp h
  rw [reads_toInt]
  by_cases low : d.toInt ≤ 0
  · rw [if_pos low]
    refine ⟨[], .nil, fun s κ => ?_⟩
    rw [enqueue_low bits low, settled, if_pos low, Queue.append_nil]
    rfl
  · rw [if_neg low]
    obtain ⟨n, u, made, -⟩ := entries_sharePair ν slot r.address d withNode withUser
    refine ⟨[n, u], made, fun s κ => ?_⟩
    rw [enqueue_high bits low made, settled, if_neg low]

/-- What comes of one record, by its balance and the refund that is owed. -/
structure Enqueued (slot : Nat) (r : Raw) (s : Shares) (κ : Queue Shares) (out : Except SnapshotError Shares)
    (κ' : Queue Shares) : Prop where
  refused : ∀ e, out = .error e ↔
    (2 ^ 255 ≤ r.balance.toNat ∨ 2 ^ 255 ≤ r.nodeRefundBalance.toNat) ∧
      e = .conversion (.account r.address) "distributable balance" .overflow
  untouched : ∀ e, out = .error e → κ' = κ
  exact : ∀ s', out = .ok s' → s'.distributableBalance = (r.balance.toNat : Int) - r.nodeRefundBalance.toNat
  none : r.balance.toNat ≤ r.nodeRefundBalance.toNat → ∀ s', out = .ok s' →
    s'.nodeShareOfBalance = 0 ∧ s'.userShareOfBalance = 0 ∧ κ' = κ
  some : r.nodeRefundBalance.toNat < r.balance.toNat → ∀ s', out = .ok s' →
    s'.nodeShareOfBalance = s.nodeShareOfBalance ∧ s'.userShareOfBalance = s.userShareOfBalance ∧
    ∃ w : Word, w.toNat = r.balance.toNat - r.nodeRefundBalance.toNat ∧ 1 ≤ w.toNat ∧ w.toNat ≤ 2 ^ 255 - 1 ∧
      κ'.calls = κ.calls ++ [.to r.address "calculateNodeShare(uint256)" [.uint w],
        .to r.address "calculateUserShare(uint256)" [.uint w]] ∧
      κ'.bindings.map (fun β => (β.slot, β.method)) = κ.bindings.map (fun β => (β.slot, β.method)) ++
        [(slot, "calculateNodeShare"), (slot, "calculateUserShare")]

theorem enqueued (ν : Network) (slot : Nat) (r : Raw) (s : Shares) (κ : Queue Shares) :
    Enqueued slot r s κ ((enqueue ν slot r s).run.run κ).1 ((enqueue ν slot r s).run.run κ).2 := by
  cases bits : r.balance.signedDifference r.nodeRefundBalance with
  | none =>
    have wide := Word.signedDifference_eq_none.mp bits
    have refused :
        signedAmount r = .error (.conversion (.account r.address) "distributable balance" .overflow) := by
      rw [signedAmount, bits]
    rw [enqueue_error refused]
    refine ⟨fun e => ?_, fun _ _ => rfl, nofun, fun _ => nofun, fun _ => nofun⟩
    rw [Except.error.injEq, and_iff_right wide]
    exact eq_comm
  | some d =>
    obtain ⟨hb, ho, exact⟩ := Word.signedDifference_eq_some.mp bits
    have settles : signedAmount r = .ok d := by rw [signedAmount, bits]
    have fits : ¬(2 ^ 255 ≤ r.balance.toNat ∨ 2 ^ 255 ≤ r.nodeRefundBalance.toNat) := by omega
    by_cases low : d.toInt ≤ 0
    · rw [enqueue_low settles low]
      refine ⟨fun e => ⟨nofun, fun h => absurd h.1 fits⟩, nofun, ?_, ?_, fun high => by omega⟩
      · rintro s' ⟨⟩
        exact exact
      · rintro - s' ⟨⟩
        exact ⟨rfl, rfl, rfl⟩
    · obtain ⟨n, u, made, node, user, node', user'⟩ := entries_sharePair ν slot r.address d withNode withUser
      have amount := Word.toNat_of_pos (Int.lt_of_not_ge low)
      rw [enqueue_high settles low made]
      refine ⟨fun e => ⟨nofun, fun h => absurd h.1 fits⟩, nofun, ?_, fun h => by omega, ?_⟩
      · rintro s' ⟨⟩
        exact exact
      · rintro - s' ⟨⟩
        refine ⟨rfl, rfl, d, by omega, by omega, by omega, ?_, ?_⟩
        · rw [Queue.append, ← node, ← user]
          rfl
        · rw [Queue.append, ← node', ← user', List.map_append]
          rfl

theorem enqueueAll_cons (ν : Network) (k : Nat) (r : Raw) (rs : List Raw) (s : Shares) (ss : List Shares) :
    enqueueAll ν k (r :: rs) (s :: ss) = do
      let s ← enqueue ν k r s
      let ss ← enqueueAll ν (k + 1) rs ss
      return s :: ss := by
  rw [enqueueAll, List.zip_cons_cons, List.zipIdx_cons, List.mapM_cons]
  rfl

/-- A chunk is settled and queued record by record, or the first record without an amount ends it. -/
theorem enqueueAll_cases (ν : Network) (rs : List Raw) (k : Nat) :
    (∃ e, rs.mapM distributable = .error e ∧ ∀ ss κ, ss.length = rs.length →
      ∃ κ', (enqueueAll ν k rs ss).run.run κ = (.error e, κ')) ∨
    ∃ amounts b, rs.mapM distributable = .ok amounts ∧
      List.Forall₂ (fun ρ e => ρ.entry = .ok e)
        (((rs.zip amounts).zipIdx k).flatMap fun (p, slot) => reads ν slot p.1 p.2) b ∧
      ∀ ss κ, ss.length = rs.length →
        (enqueueAll ν k rs ss).run.run κ = (.ok (ss.zipWith settled amounts), κ.append b) := by
  induction rs generalizing k with
  | nil =>
    refine .inr ⟨[], [], rfl, .nil, fun ss κ none => ?_⟩
    rw [Queue.append_nil, List.zipWith_nil_right]
    rfl
  | cons r rs ih =>
    have each (ss : List Shares) (length : ss.length = (r :: rs).length) :
        ∃ s ss', ss = s :: ss' ∧ ss'.length = rs.length := by
      obtain ⟨s, ss', rfl⟩ := List.exists_cons_of_length_eq_add_one length
      exact ⟨s, ss', rfl, Nat.succ.inj length⟩
    rw [List.mapM_cons]
    cases own : distributable r with
    | error e =>
      refine .inl ⟨e, rfl, fun ss κ length => ?_⟩
      obtain ⟨s, ss, rfl, -⟩ := each ss length
      rw [enqueueAll_cons]
      exact ⟨κ, Stateful.bind_error (enqueue_error (distributable_eq_error_iff.mp own) ν k s κ)⟩
    | ok amount =>
      obtain ⟨b, made, begins⟩ := enqueue_ok own ν k
      rcases ih (k + 1) with ⟨e, none, stops⟩ | ⟨amounts, b', settles, made', goes⟩
      · refine .inl ⟨e, by rw [none]; rfl, fun ss κ length => ?_⟩
        obtain ⟨s, ss, rfl, rest⟩ := each ss length
        obtain ⟨κ', stop⟩ := stops ss (κ.append b) rest
        rw [enqueueAll_cons]
        exact ⟨κ', (Stateful.bind_ok (begins s κ)).trans (Stateful.bind_error stop)⟩
      · refine .inr ⟨amount :: amounts, b ++ b', by rw [settles]; rfl, ?_, fun ss κ length => ?_⟩
        · rw [List.zip_cons_cons, List.zipIdx_cons, List.flatMap_cons]
          exact List.rel_append made made'
        · obtain ⟨s, ss, rfl, rest⟩ := each ss length
          rw [enqueueAll_cons, Stateful.bind_ok (begins s κ),
            Stateful.bind_ok (goes ss (κ.append b) rest), Queue.append_append]
          rfl

/-- The chunk's worker does what the queue does: it settles the records and makes one request of the calls. -/
theorem worker_cases (ς : Survey) (rs : List Raw) :
    (∃ e, rs.mapM distributable = .error e ∧ worker ς rs = .fail e ∧ ∀ ss κ, ss.length = rs.length →
      ∃ κ', (enqueueAll ς.network 0 rs ss).run.run κ = (.error e, κ')) ∨
    ∃ amounts b, rs.mapM distributable = .ok amounts ∧
      worker ς rs = .change (fun ss => (ss.zipWith settled amounts, none)) ::
        Batch.worker b .strict ς.block (.batch .shares) (fun _ ss => ss) ∧
      List.Forall₂ (fun ρ e => ρ.entry = .ok e)
        (((rs.zip amounts).zipIdx 0).flatMap fun (p, slot) => reads ς.network slot p.1 p.2) b ∧
      ∀ ss κ, ss.length = rs.length →
        (enqueueAll ς.network 0 rs ss).run.run κ = (.ok (ss.zipWith settled amounts), κ.append b) := by
  rcases enqueueAll_cases ς.network rs 0 with ⟨e, none, stops⟩ | ⟨amounts, b, settles, made, goes⟩
  · exact .inl ⟨e, none, by rw [worker, none], stops⟩
  · refine .inr ⟨amounts, b, settles, ?_, made, goes⟩
    have built : Batch.ofReads (readEach (rs.zip amounts) fun slot p => reads ς.network slot p.1 p.2) = .ok b :=
      Traverse.mapM_eq_ok.mpr made
    rw [worker, settles]
    change _ :: Read.worker (readEach (rs.zip amounts) fun slot p => reads ς.network slot p.1 p.2) _ _ = _
    rw [Read.worker, Read.workerWith, built]
    rfl

end Minipool.Shares

end PoolSnapshot
